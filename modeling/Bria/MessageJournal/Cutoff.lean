import Bria.MessageJournal.Steps

/-!
# The recovery cutoff

A recovery opens a boundary at the session's last sequence. What it keeps while it is open is listed
by `BoundaryKept`, and the commit treats exactly the inputs at or below it (`recovery_cutoff`).
-/

namespace Bria.MessageJournal

open Go SessionRecord Call

variable {limits : Limits} {disk : Disk} {sessionID token : GoString} {through : Nat} {α : Type}
  {loaded d1 : Document} {missing : Err} {s : SessionRecord} {ctx : Context}
  {skips : InputRecord → Bool} {legacyBlockedOnly : Bool}

/-- The file holds an open boundary of the session, at `through` and under `token`. -/
def HoldsBoundary (limits : Limits) (disk : Disk) (sessionID token : GoString) (through : Nat) :
    Prop :=
  ∃ d s, read limits disk = .ok d ∧ sessionAt d sessionID = some s ∧
    s.recovery = some ⟨token, through, .opened⟩

/-- The operation commits the session's recovery under `token`. -/
def Op.CommitsAs (op : Op) (sessionID token : GoString) : Prop :=
  ∃ ctx, op = .commitInputRecoverySkip ctx sessionID token ∨
    op = .commitInputRecoveryAttach ctx sessionID token

/-- The operation begins a recovery of the session under `token`. -/
def Op.BeginsAs (op : Op) (sessionID token : GoString) : Prop :=
  ∃ ctx legacyBlockedOnly, op = .beginInputRecovery ctx sessionID token legacyBlockedOnly

/-! ## Calls that leave the file -/

variable {faults : Faults}

/-- A call whose change refuses leaves the file. -/
theorem Call.run_refused {call : Call α}
    (h : ∀ d, read limits disk = .ok d → ∃ e, (call.change d).2 = .error e) :
    (call.run limits faults disk).2 = disk := by
  rcases call.run_cases limits faults disk with ⟨result, -, heq⟩ | ⟨-, e, heq⟩ |
    ⟨-, d, e, -, -, heq⟩ | ⟨-, -, -, d, d', hread, hchange, -⟩
  · rw [heq]
  · rw [heq]
  · rw [heq]
  obtain ⟨e, he⟩ := h d hread
  rw [hchange] at he
  cases he

/-- A checked call whose change refuses with an error that is not `errNoMutation` returns an
error. -/
theorem Call.run_rejected {check : Except Err Unit} {zero : α}
    {change : Document → α × Except Err Document}
    (h : ∀ d, read limits disk = .ok d → ∃ e, (change d).2 = .error e ∧ e.is .noMutation = false) :
    ((checked check zero change).run limits faults disk).2 = disk ∧
      ((checked check zero change).run limits faults disk).1.2 ≠ none := by
  refine ⟨run_refused fun d hd => ?_, fun hnil => ?_⟩
  · obtain ⟨e, he, -⟩ := h d hd
    exact ⟨e, he⟩
  rcases run_nil hnil with ⟨hearly, -⟩ | ⟨-, d, hread, -, hcase⟩
  · -- A check that fails returns its error.
    simp only [checked, map_eq_some_iff, Prod.mk.injEq] at hearly
    obtain ⟨e, -, -, he⟩ := hearly
    cases he
  obtain ⟨e, he, hnot⟩ := h d hread
  have hchange : ((checked check zero change).change d).2 = .error e := he
  rcases hcase with ⟨e', he', his, -⟩ | ⟨d', hd', -⟩
  · rw [hchange] at he'
    cases he'
    rw [hnot] at his
    cases his
  rw [hchange] at hd'
  cases hd'

section

variable {change : SessionRecord → α × Except Err SessionRecord} {zero : α}
  (hs : sessionAt loaded sessionID = some s)
include hs

/-- The change of a session that is there, as the change of the session. -/
theorem changeSession_found :
    changeSession (findSession loaded sessionID missing) zero change =
      ((change s).1, (change s).2.map loaded.setSession) := by
  simp only [changeSession, findSession, hs]
  rcases change s with ⟨result, e | s'⟩ <;> rfl

/-- The same change after the context's check. -/
theorem changeSession_recheck_found :
    changeSession (do recheckContext ctx; findSession loaded sessionID missing) zero change =
      (if ctx.cancelledLater then zero else (change s).1,
        if ctx.cancelledLater then .error (err .canceled)
        else (change s).2.map loaded.setSession) := by
  cases hc : ctx.cancelledLater with
  | true => simp [recheckContext, refuse, hc, bind, Except.bind, changeSession]
  | false =>
    have hpass : (do recheckContext ctx; findSession loaded sessionID missing) =
        findSession loaded sessionID missing := by
      simp [recheckContext, refuse, hc, bind, Except.bind]
    rw [hpass, changeSession_found hs]
    rfl

end

/-! ## An open boundary stays where it is -/

variable {op : Op} {s s' : SessionRecord}

/-- What a step can do to an open boundary. -/
theorem SessionStep.boundary (h : SessionStep limits op s s')
    (hopen : s.recovery = some ⟨token, through, .opened⟩) :
    s'.recovery = some ⟨token, through, .opened⟩ ∨
      (∃ other, op.BeginsAs s.sessionID other ∧ s'.recovery = some ⟨other, through, .opened⟩) ∨
      op.CommitsAs s.sessionID token := by
  cases h with
  | stay => exact .inl hopen
  | move named h =>
    cases h with
    | enqueueInput | writeInput | enqueueOutput | writeOutput | supersede => exact .inl hopen
    | @takeOver ctx id other legacyBlockedOnly _ _ heq hopened =>
      subst heq
      rw [hopen] at hopened
      cases hopened
      simp only [Op.sessionIDs, mem_singleton] at named
      exact .inr (.inl ⟨other, ⟨ctx, legacyBlockedOnly, by rw [named]⟩, rfl⟩)
    | openBoundary _ hclosed =>
      -- A boundary is opened only where none is open.
      simp [recoveryOpen, hopen] at hclosed
    | commit hcommit hopened =>
      rw [hopen] at hopened
      cases hopened
      refine .inr (.inr ?_)
      cases op <;> simp only [Op.commit, some.injEq, Prod.mk.injEq, reduceCtorEq] at hcommit
        <;> simp only [Op.sessionIDs, mem_singleton] at named <;> rw [named, ← hcommit.1]
      · exact ⟨_, .inl rfl⟩
      · exact ⟨_, .inr rfl⟩

theorem HoldsBoundary.step (h : HoldsBoundary limits disk sessionID token through)
    (hread1 : read limits (op.step limits faults disk) = .ok d1) :
    (∃ other, HoldsBoundary limits (op.step limits faults disk) sessionID other through ∧
        (other = token ∨ ∃ begun, op.BeginsAs sessionID begun ∧ other = jsonText begun)) ∨
      op.CommitsAs sessionID token := by
  obtain ⟨d, s, hread, hs, hopen⟩ := h
  have hid := sessionID_of_sessionAt hs
  rcases Op.step_session hread hread1 hs with hs1 | ⟨s', -, hstep, hs1⟩
  · exact .inl ⟨token, ⟨d1, s, hread1, hs1, hopen⟩, .inl rfl⟩
  rcases hstep.boundary hopen with hkept | ⟨other, hbegins, hmoved⟩ | hcommits
  · -- The token came from the file, so it is text.
    have htext := (encoded_of_read hread s (mem_of_sessionAt hs)).recovery _ hopen
    refine .inl ⟨token, ⟨d1, s'.reencode, hread1, hs1, ?_⟩, .inl rfl⟩
    simp only [reencode, hkept, map_some, InputRecoveryRecord.reencode, htext]
  · rw [hid] at hbegins
    refine .inl ⟨jsonText other, ⟨d1, s'.reencode, hread1, hs1, ?_⟩, .inr ⟨other, hbegins, rfl⟩⟩
    simp only [reencode, hmoved, map_some, InputRecoveryRecord.reencode]
  rw [hid] at hcommits
  exact .inr hcommits

/-- Through any run an open boundary stays where it is, under the token of its last owner, until
that owner commits it. -/
theorem HoldsBoundary.run {events : List Event}
    (h : HoldsBoundary limits disk sessionID token through)
    (hread1 : read limits (run limits disk events) = .ok d1) :
    (∃ holder, HoldsBoundary limits (run limits disk events) sessionID holder through ∧
        (holder = token ∨ ∃ event ∈ events, ∃ begun, event.op.BeginsAs sessionID begun ∧
          holder = jsonText begun)) ∨
      ∃ before event after holder, events = before ++ event :: after ∧
        HoldsBoundary limits (run limits disk before) sessionID holder through ∧
        event.op.CommitsAs sessionID holder := by
  induction events generalizing disk token with
  | nil => exact .inl ⟨token, h, .inl rfl⟩
  | cons event events ih =>
    rw [run_cons] at hread1 ⊢
    obtain ⟨d', hread'⟩ := read_of_read_run hread1
    rcases h.step hread' with ⟨other, hother, hfrom⟩ | hcommits
    · rcases ih hother hread1 with ⟨holder, hholder, hlater⟩ |
        ⟨before, event', after, holder, rfl, hholder, hcommits⟩
      · refine .inl ⟨holder, hholder, ?_⟩
        rcases hlater with rfl | ⟨event', hmem, hbegun⟩
        · rcases hfrom with rfl | hbegun
          · exact .inl rfl
          · exact .inr ⟨event, mem_cons_self, hbegun⟩
        · exact .inr ⟨event', mem_cons_of_mem _ hmem, hbegun⟩
      · exact .inr ⟨event :: before, event', after, holder, rfl, hholder, hcommits⟩
    · exact .inr ⟨[], event, events, token, rfl, h, hcommits⟩

/-! ## What an open boundary refuses -/

variable {phase : InputRecoveryPhase} {f : InputRecord → InputRecord}

/-- A commit under another token is refused. -/
theorem commitRecovery_other {recovery : InputRecoveryRecord} (hrec : s.recovery = some recovery)
    (hother : recovery.token ≠ token) :
    (commitRecovery token phase f s).2 = .error (err .conflict) := by
  simp [commitRecovery, hrec, hother]

/-- A commit under another token than the holder's leaves the file and returns an error. -/
theorem HoldsBoundary.commit_other (h : HoldsBoundary limits disk sessionID token through)
    {other : GoString} (hother : token ≠ other) (ctx : Context) (phase : InputRecoveryPhase)
    (f : InputRecord → InputRecord) (faults : Faults) :
    ((commitInputRecovery limits ctx sessionID other phase f).run limits faults disk).2 = disk ∧
      ((commitInputRecovery limits ctx sessionID other phase f).run limits faults disk).1.2 ≠
        none := by
  obtain ⟨d, s, hread, hs, hopen⟩ := h
  refine run_rejected fun d' hread' => ?_
  obtain rfl : d = d' := ok.inj (hread.symm.trans hread')
  rw [changeSession_recheck_found hs, commitRecovery_other hopen hother]
  split_ifs <;> exact ⟨_, rfl, rfl⟩

variable {d : Document}

/-- The acceptance of an input at or below an open boundary leaves the file and returns an
error. -/
theorem HoldsBoundary.accept_below (h : HoldsBoundary limits disk sessionID token through)
    {messageID : GoString} {r : InputRecord} (hread : read limits disk = .ok d)
    (hr : lookupInput d sessionID messageID = some r) (hle : r.sequence ≤ through)
    (ctx : Context) (owner : GoString) (faults : Faults) :
    ((markInputAccepted limits ctx sessionID messageID owner).run limits faults disk).2 = disk ∧
      ((markInputAccepted limits ctx sessionID messageID owner).run limits faults disk).1.2 ≠
        none := by
  obtain ⟨d', s, hread', hs, hopen⟩ := h
  obtain rfl : d = d' := ok.inj (hread.symm.trans hread')
  have hfind : s.inputs.find? (·.messageID = messageID) = some r := by
    simpa [lookupInput, hs] using hr
  refine run_rejected fun d0 hread0 => ?_
  obtain rfl : d = d0 := ok.inj (hread.symm.trans hread0)
  have hrefused : (transitionInputRecord messageID (acceptTransition owner) s).2 =
      .error (err .inputSkipped) := by
    have ht : acceptTransition owner s r = .error (err .inputSkipped) := by
      simp [acceptTransition, hopen, hle, refuse, bind, Except.bind]
    simp only [transitionInputRecord, hfind, ht]
  rw [changeSession_found hs, hrefused]
  exact ⟨_, rfl, rfl⟩

/-! ## What a commit does -/

/-- An input at or below the boundary for which `skips` holds, skipped; any other as it is. -/
def skipThrough (through : Nat) (skips : InputRecord → Bool) (r : InputRecord) : InputRecord :=
  if r.sequence ≤ through ∧ skips r = true then { r with phase := .skipped, lease := {} } else r

/-- The inputs whose hand-off may have happened: failed, unknown, or pending under a lease. -/
def InputRecord.ambiguous (r : InputRecord) : Bool :=
  match r.phase with
  | .failed | .unknown => true
  | .pending => r.lease.owner ≠ []
  | _ => false

/-- The session after its boundary is closed. -/
def SessionRecord.closed (s : SessionRecord) (token : GoString) (through : Nat)
    (phase : InputRecoveryPhase) (skips : InputRecord → Bool) : SessionRecord :=
  { s with
    inputs := s.inputs.map (skipThrough through skips)
    recovery := some ⟨token, through, phase⟩ }

/-- A skip commit skips the unresolved inputs. -/
theorem skipUnresolved_eq (r : InputRecord) :
    skipUnresolved r =
      if r.phase.unresolved = true then { r with phase := .skipped, lease := {} } else r := by
  unfold skipUnresolved
  cases hp : r.phase <;> simp [InputPhase.unresolved]

/-- An attach commit skips the ambiguous inputs. -/
theorem skipAmbiguous_eq (r : InputRecord) :
    skipAmbiguous r =
      if r.ambiguous = true then { r with phase := .skipped, lease := {} } else r := by
  unfold skipAmbiguous InputRecord.ambiguous
  cases hp : r.phase <;> simp

/-- The commit of an open boundary under its token. -/
theorem commitRecovery_holder (hs : s.Valid limits)
    (hopen : s.recovery = some ⟨token, through, .opened⟩) (hphase : phase ≠ .opened)
    (hf : ∀ r, f r = if skips r = true then { r with phase := .skipped, lease := {} } else r) :
    (commitRecovery token phase f s).2 = .ok (s.closed token through phase skips) := by
  have hmap : applyThrough through f s.inputs = s.inputs.map (skipThrough through skips) := by
    rw [applyThrough_eq_map (pairwise_cons.mp hs.inputOrder).2]
    refine List.map_congr_left fun r _ => ?_
    by_cases hle : r.sequence ≤ through <;> simp [skipThrough, hle, hf]
  simp [commitRecovery, hopen, hphase.symm, hmap, closed]

/-- What a commit of `d` into `expected` amounts to: its guard accepts exactly that change unless
the context is cancelled, the change is valid, and a commit that returns no error has made it. -/
structure CommitsTo (limits : Limits) (disk : Disk) (ctx : Context) (call : Call Unit)
    (d expected : Document) : Prop where
  /-- The guard accepts. -/
  accepted : ctx.cancelledLater = false → (call.change d).2 = .ok expected
  /-- The changed document passes validation. -/
  valid : validateDocument expected limits = .ok ()
  /-- The file holds the change when no error is returned. -/
  durable : ∀ faults, (call.run limits faults disk).1.2 = none →
    read limits (call.run limits faults disk).2 = .ok expected

/-- The commit of an open boundary by its holder. -/
theorem commit_holder (hread : read limits disk = .ok d) (hs : sessionAt d sessionID = some s)
    (hopen : s.recovery = some ⟨token, through, .opened⟩) {op : Op}
    (hcommit : op.commit = some (token, phase, f))
    (hf : ∀ r, f r = if skips r = true then { r with phase := .skipped, lease := {} } else r)
    (ctx : Context) :
    CommitsTo limits disk ctx (commitInputRecovery limits ctx sessionID token phase f) d
      (d.setSession (s.closed token through phase skips)) := by
  have hvalid := valid_of_read hread
  have hmem := mem_of_sessionAt hs
  have hsv := hvalid.sessions s hmem
  have hphase : phase ≠ .opened := by
    intro h
    rcases (Op.commit_cases hcommit ⟨[], 0, [], none, .pending, {}⟩).2 with ⟨h', -⟩ | ⟨h', -⟩ <;>
      rw [h] at h' <;> cases h'
  have hsession := commitRecovery_holder hsv hopen hphase hf
  have hchange : ((commitInputRecovery limits ctx sessionID token phase f).change d).2 =
      if ctx.cancelledLater then .error (err .canceled)
      else .ok (d.setSession (s.closed token through phase skips)) := by
    refine (congrArg Prod.snd (changeSession_recheck_found hs)).trans ?_
    rw [hsession]
    rfl
  refine ⟨fun hctx => by rw [hchange, hctx]; rfl, ?_, fun faults hnil => ?_⟩
  · obtain ⟨through', hopen', heq⟩ := commitRecovery_eq_ok hsession
    obtain rfl : through = through' := by
      rw [hopen] at hopen'
      cases hopen'
      rfl
    have hclosed := hsv.commit hcommit hopen
    rw [← heq] at hclosed
    rw [validateDocument_ok_iff]
    have hat : sessionAt d s.sessionID = some s := by
      rw [sessionID_of_sessionAt hs]
      exact hs
    have hid : (s.closed token through phase skips).sessionID = s.sessionID := rfl
    have hcount : (s.closed token through phase skips).inputs.length ≤
        limits.maxInputsPerSession := by
      simpa [closed] using hvalid.inputCount s hmem
    exact (hvalid.setSession_iff hat hid hcount (hvalid.outputCount s hmem)).mpr hclosed
  · rcases run_nil hnil with ⟨hearly, -⟩ | ⟨-, d0, hread0, -, hcase⟩
    · simp [commitInputRecovery, checked] at hearly
    obtain rfl : d = d0 := ok.inj (hread.symm.trans hread0)
    rw [hchange] at hcase
    rcases hcase with ⟨e, he, his, -⟩ | ⟨d', hd', -, hread'⟩
    · split_ifs at he
      cases he
      simp [err, GoError.is] at his
    split_ifs at hd'
    cases hd'
    exact hread'

/-- Repeating a commit that is recorded changes nothing. -/
theorem commit_again (hread : read limits disk = .ok d) (hs : sessionAt d sessionID = some s)
    (hrec : s.recovery = some ⟨token, through, phase⟩) (f : InputRecord → InputRecord)
    (ctx : Context) (faults : Faults) :
    ((commitInputRecovery limits ctx sessionID token phase f).run limits faults disk).2 = disk := by
  refine run_refused fun d0 hread0 => ?_
  obtain rfl : d = d0 := ok.inj (hread.symm.trans hread0)
  have hnoop : (commitRecovery token phase f s).2 = .error (err .noMutation) := by
    simp [commitRecovery, hrec]
  refine ⟨if ctx.cancelledLater then err .canceled else err .noMutation, ?_⟩
  refine (congrArg Prod.snd (changeSession_recheck_found hs)).trans ?_
  rw [hnoop]
  split_ifs <;> rfl

/-! ## The cutoff -/

/-- What an open boundary keeps. -/
structure BoundaryKept (limits : Limits) (disk : Disk) (sessionID token : GoString)
    (through : Nat) : Prop where
  /-- Whatever runs, it stays where it is until the holder of its token commits it. Another begin
  changes the holder. -/
  fixed : ∀ events d₁, read limits (run limits disk events) = .ok d₁ →
    (∃ holder, HoldsBoundary limits (run limits disk events) sessionID holder through ∧
        (holder = token ∨ ∃ event ∈ events, ∃ begun, event.op.BeginsAs sessionID begun ∧
          holder = jsonText begun)) ∨
      ∃ before event after holder, events = before ++ event :: after ∧
        HoldsBoundary limits (run limits disk before) sessionID holder through ∧
        event.op.CommitsAs sessionID holder
  /-- A commit under another token is rejected without a change. -/
  otherToken : ∀ other, token ≠ other → ∀ ctx faults,
    (((commitInputRecoverySkip limits ctx sessionID other).run limits faults disk).2 = disk ∧
        ((commitInputRecoverySkip limits ctx sessionID other).run limits faults disk).1.2 ≠ none) ∧
      ((commitInputRecoveryAttach limits ctx sessionID other).run limits faults disk).2 = disk ∧
        ((commitInputRecoveryAttach limits ctx sessionID other).run limits faults disk).1.2 ≠ none
  /-- The acceptance of an input at or below it is rejected without a change. -/
  acceptance : ∀ d messageID r, read limits disk = .ok d →
    lookupInput d sessionID messageID = some r → r.sequence ≤ through → ∀ ctx owner faults,
      ((markInputAccepted limits ctx sessionID messageID owner).run limits faults disk).2 =
          disk ∧
        ((markInputAccepted limits ctx sessionID messageID owner).run limits faults disk).1.2 ≠ none
  /-- A skip commit by the holder skips exactly the unresolved inputs at or below it. -/
  skip : ∀ d s, read limits disk = .ok d → sessionAt d sessionID = some s → ∀ ctx,
    CommitsTo limits disk ctx (commitInputRecoverySkip limits ctx sessionID token) d
      (d.setSession (s.closed token through .committed (·.phase.unresolved)))
  /-- An attach commit by the holder skips exactly the inputs at or below it that are failed,
  unknown or pending under a lease. -/
  attach : ∀ d s, read limits disk = .ok d → sessionAt d sessionID = some s → ∀ ctx,
    CommitsTo limits disk ctx (commitInputRecoveryAttach limits ctx sessionID token) d
      (d.setSession (s.closed token through .attached (·.ambiguous)))

/-- An open boundary keeps all of it. -/
theorem HoldsBoundary.kept (h : HoldsBoundary limits disk sessionID token through) :
    BoundaryKept limits disk sessionID token through := by
  have hstate : ∀ d s, read limits disk = .ok d → sessionAt d sessionID = some s →
      s.recovery = some ⟨token, through, .opened⟩ := by
    intro d s hread hs
    obtain ⟨d', s', hread', hs', hopen⟩ := h
    obtain rfl : d = d' := ok.inj (hread.symm.trans hread')
    obtain rfl : s = s' := mem_unique hs hs'
    exact hopen
  refine ⟨fun events d1 => h.run, fun other hother ctx faults =>
    ⟨h.commit_other hother ctx _ _ faults, h.commit_other hother ctx _ _ faults⟩,
    fun d messageID r hread hr hle ctx owner faults => h.accept_below hread hr hle ctx owner faults,
    fun d s hread hs ctx => ?_, fun d s hread hs ctx => ?_⟩
  · exact commit_holder hread hs (hstate d s hread hs)
      (rfl : Op.commit (.commitInputRecoverySkip ctx sessionID token) = _) skipUnresolved_eq ctx
  exact commit_holder hread hs (hstate d s hread hs)
    (rfl : Op.commit (.commitInputRecoveryAttach ctx sessionID token) = _) skipAmbiguous_eq ctx

/-- A begin reports success for the recorded token, or with a change. -/
theorem beginRecovery_true (h : (beginRecovery token legacyBlockedOnly s).1) :
    (∃ r, s.recovery = some r ∧ r.token = token) ∨
      ∃ s', (beginRecovery token legacyBlockedOnly s).2 = .ok s' := by
  have hopens : (openRecovery token legacyBlockedOnly s).1 →
      ∃ s', (openRecovery token legacyBlockedOnly s).2 = .ok s' := by
    unfold openRecovery
    split_ifs
    · intro h
      cases h
    · exact fun _ => ⟨_, rfl⟩
  unfold beginRecovery at h ⊢
  rcases hrec : s.recovery with _ | recovery
  · simp only [hrec] at h ⊢
    exact .inr (hopens h)
  simp only [hrec] at h ⊢
  split_ifs at h ⊢ with htoken hphase
  · exact .inl ⟨recovery, rfl, htoken⟩
  · exact .inr ⟨_, rfl⟩
  · exact .inr (hopens h)

/-- A begin where no boundary is open, under a token that is not the recorded one, opens one at the
session's last sequence when it reports success. -/
theorem begin_opens (hread : read limits disk = .ok d) (hs : sessionAt d sessionID = some s)
    (hclosed : s.recoveryOpen = false) (hother : ∀ r, s.recovery = some r → r.token ≠ token)
    (h : ((beginInputRecovery limits ctx sessionID token legacyBlockedOnly).run limits faults
      disk).1 = (true, none)) :
    HoldsBoundary limits ((beginInputRecovery limits ctx sessionID token legacyBlockedOnly).run
      limits faults disk).2 sessionID token s.nextSequence := by
  have hnil := congrArg Prod.snd h
  rcases run_nil hnil with ⟨hearly, -⟩ | ⟨-, d0, hread0, hresult, hcase⟩
  · simp [beginInputRecovery, checked] at hearly
  obtain rfl : d = d0 := ok.inj (hread.symm.trans hread0)
  have hchange : (beginInputRecovery limits ctx sessionID token legacyBlockedOnly).change d = _ :=
    changeSession_recheck_found hs
  rw [hchange] at hcase hresult
  rw [h] at hresult
  -- A cancelled context, or nothing to recover, would not report success.
  cases hctx : ctx.cancelledLater with
  | true => simp [hctx] at hresult
  | false =>
    simp only [hctx, false_eq_true, if_false] at hresult hcase
    rcases hcase with ⟨e, he, his, -⟩ | ⟨d', hd', -, hread'⟩
    · rcases beginRecovery_true hresult.symm with ⟨r, hr, htoken⟩ | ⟨s', hs'⟩
      · exact absurd htoken (hother r hr)
      · simp [hs', Except.map] at he
    rcases hs' : (beginRecovery token legacyBlockedOnly s).2 with e | s'
    · simp [hs', Except.map] at hd'
    simp only [hs', Except.map, ok.injEq] at hd'
    subst hd'
    rcases beginRecovery_eq_ok hs' with ⟨before, through, hopen, -⟩ | ⟨-, -, -, rfl⟩
    · simp [recoveryOpen, hopen] at hclosed
    have hfound : d.sessions.find? (·.sessionID = s.sessionID) = some s := by
      rw [sessionID_of_sessionAt hs]
      exact hs
    refine ⟨_, { s with recovery := some ⟨token, s.nextSequence, .opened⟩ }, hread', ?_, rfl⟩
    rw [← sessionID_of_sessionAt hs]
    exact Table.find?_replaceFirst_self hfound (by simp)

/-- The recovery cutoff of a session. A begin that opens a boundary puts it at the last sequence;
while it is open the boundary keeps what `BoundaryKept` lists; a commit that is recorded changes
nothing when it is repeated. -/
theorem recovery_cutoff (limits : Limits) (sessionID : GoString) :
    (∀ disk d s ctx token legacyBlockedOnly faults, read limits disk = .ok d →
      sessionAt d sessionID = some s → s.recoveryOpen = false →
      (∀ r, s.recovery = some r → r.token ≠ token) →
      ((beginInputRecovery limits ctx sessionID token legacyBlockedOnly).run limits faults
        disk).1 = (true, none) →
      HoldsBoundary limits ((beginInputRecovery limits ctx sessionID token legacyBlockedOnly).run
        limits faults disk).2 sessionID token s.nextSequence) ∧
      (∀ disk token through, HoldsBoundary limits disk sessionID token through →
        BoundaryKept limits disk sessionID token through) ∧
      ∀ disk d s token through, read limits disk = .ok d → sessionAt d sessionID = some s →
        (s.recovery = some ⟨token, through, .committed⟩ → ∀ ctx faults,
          ((commitInputRecoverySkip limits ctx sessionID token).run limits faults disk).2 = disk) ∧
        (s.recovery = some ⟨token, through, .attached⟩ → ∀ ctx faults,
          ((commitInputRecoveryAttach limits ctx sessionID token).run limits faults disk).2 =
            disk) := by
  refine ⟨?_, fun disk token through h => h.kept, ?_⟩
  · intro disk d s ctx token legacyBlockedOnly faults hread hs hclosed hother h
    exact begin_opens hread hs hclosed hother h
  intro disk d s token through hread hs
  exact ⟨fun hrec ctx faults => commit_again hread hs hrec _ ctx faults,
    fun hrec ctx faults => commit_again hread hs hrec _ ctx faults⟩

/-- The file after `m` was enqueued, a recovery begun under `t` and `n` enqueued. -/
def boundaryDisk : Disk :=
  run defaultLimits .missing
    [⟨.enqueueInput {} [0x73] [0x6D] [] [], {}⟩, ⟨.beginInputRecovery {} [0x73] [0x74] false, {}⟩,
      ⟨.enqueueInput {} [0x73] [0x6E] [] [], {}⟩]

/-- The boundary of `boundaryDisk` covers the first input only, and the acceptance of that input
is rejected. -/
theorem recovery_cutoff_first :
    HoldsBoundary defaultLimits boundaryDisk [0x73] [0x74] 1 ∧
      ((markInputAccepted defaultLimits {} [0x73] [0x6D] [0x6F]).run defaultLimits {}
        boundaryDisk).1.2 ≠ none := by
  have hholds : HoldsBoundary defaultLimits boundaryDisk [0x73] [0x74] 1 := ⟨_, _, rfl, rfl, rfl⟩
  refine ⟨hholds, ?_⟩
  have hkept := (recovery_cutoff defaultLimits [0x73]).2.1 _ _ _ hholds
  exact (hkept.acceptance _ [0x6D] _ rfl rfl (Nat.le_refl 1) {} [0x6F] {}).2

/-- On `boundaryDisk` a begin under `u` reports success, although the boundary is not at the last
sequence. It makes `u` the holder: its commit is accepted and the commit under `t` is not. -/
theorem takeover_keeps_cutoff :
    ∃ disk d s, (beginInputRecovery defaultLimits {} [0x73] [0x75] false).run defaultLimits {}
        boundaryDisk = ((true, none), disk) ∧
      read defaultLimits disk = .ok d ∧ sessionAt d [0x73] = some s ∧ s.nextSequence = 2 ∧
      s.recovery = some ⟨[0x75], 1, .opened⟩ ∧
      ((commitInputRecoverySkip defaultLimits {} [0x73] [0x75]).run defaultLimits {} disk).1.2 =
        none ∧
      ((commitInputRecoverySkip defaultLimits {} [0x73] [0x74]).run defaultLimits {} disk).1.2 =
        some (err .conflict) :=
  ⟨_, _, _, rfl, rfl, rfl, rfl, rfl, rfl, rfl⟩

end Bria.MessageJournal
