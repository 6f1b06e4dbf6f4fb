import Bria.MessageJournal.Recovery

/-!
# The journal as a state machine

An operation with its arguments is a value of `Op`, and `Op.step` is what it does to the file. All
changes have one shape, whatever the operation: a session is found (or, by an enqueue, appended),
`Op.onSession` computes the session it becomes, and that session is written back
(`Op.change_eq_ok`). At the level of the file an operation either leaves it as it is, or replaces
it by the encoding of a changed document that passed validation (`Call.run_cases`).
-/

namespace Bria.MessageJournal

open Go

/-- A mutating operation of the journal with its arguments. -/
inductive Op where
  | enqueueInput (ctx : Context) (sessionID messageID payload : GoString)
      (attachments : List AttachmentRef)
  | leaseNextInput (ctx : Context) (sessionID owner : GoString) (now : Time) (duration : Int)
  | markInputAccepted (ctx : Context) (sessionID messageID owner : GoString)
  | replaceLeasedInputPayload (ctx : Context) (sessionID messageID owner : GoString)
      (sequence : Nat) (payload : GoString)
  | releaseInputLease (ctx : Context) (sessionID messageID owner : GoString)
  | markInputDeliveryFailed (ctx : Context) (sessionID messageID owner : GoString)
  | markInputDeliveryUnknown (ctx : Context) (sessionID messageID owner : GoString)
  | completeInput (ctx : Context) (sessionID messageID : GoString)
  | failInput (ctx : Context) (sessionID messageID : GoString)
  | markInputUnknown (ctx : Context) (sessionID messageID : GoString)
  | resolveUnknownInput (ctx : Context) (sessionID messageID : GoString) (sequence : Nat)
      (outcome : InputPhase)
  | resolveAcceptedInput (ctx : Context) (sessionID messageID : GoString) (sequence : Nat)
      (outcome : InputPhase)
  | retryInput (ctx : Context) (sessionID messageID : GoString)
  | beginInputRecovery (ctx : Context) (sessionID token : GoString) (legacyBlockedOnly : Bool)
  | commitInputRecoverySkip (ctx : Context) (sessionID token : GoString)
  | commitInputRecoveryAttach (ctx : Context) (sessionID token : GoString)
  | enqueueOutput (ctx : Context) (sessionID operationID kind payload : GoString)
  | leaseNextOutput (ctx : Context) (sessionIDs : List GoString) (owner : GoString) (now : Time)
      (duration : Int)
  | supersedePendingOutputs (ctx : Context) (sessionID keepOperationID : GoString)
      (kinds : List GoString)
  | confirmOutput (ctx : Context) (sessionID operationID owner receipt : GoString)
  | markOutputFailed (ctx : Context) (sessionID operationID owner : GoString)
  | markOutputUnknown (ctx : Context) (sessionID operationID owner : GoString)
  | retryOutput (ctx : Context) (sessionID operationID : GoString)

/-- A method without its result. -/
def Call.forget {α : Type} (call : Call α) : Call Unit where
  early := call.early.map fun r => ((), r.2)
  zero := ()
  change := fun loaded => ((), (call.change loaded).2)

section

variable (limits : Limits) (op : Op) (faults : Faults) (disk : Disk)

/-- The method of an operation. -/
def Op.call : Op → Call Unit
  | .enqueueInput ctx sessionID messageID payload attachments =>
    (MessageJournal.enqueueInputWithAttachments limits ctx sessionID messageID payload
      attachments).forget
  | .leaseNextInput ctx sessionID owner now duration =>
    (MessageJournal.leaseNextInput limits ctx sessionID owner now duration).forget
  | .markInputAccepted ctx sessionID messageID owner =>
    (MessageJournal.markInputAccepted limits ctx sessionID messageID owner).forget
  | .replaceLeasedInputPayload ctx sessionID messageID owner sequence payload =>
    (MessageJournal.replaceLeasedInputPayload limits ctx sessionID messageID owner sequence
      payload).forget
  | .releaseInputLease ctx sessionID messageID owner =>
    (MessageJournal.releaseInputLease limits ctx sessionID messageID owner).forget
  | .markInputDeliveryFailed ctx sessionID messageID owner =>
    (MessageJournal.markInputDeliveryFailed limits ctx sessionID messageID owner).forget
  | .markInputDeliveryUnknown ctx sessionID messageID owner =>
    (MessageJournal.markInputDeliveryUnknown limits ctx sessionID messageID owner).forget
  | .completeInput ctx sessionID messageID =>
    (MessageJournal.completeInput limits ctx sessionID messageID).forget
  | .failInput ctx sessionID messageID =>
    (MessageJournal.failInput limits ctx sessionID messageID).forget
  | .markInputUnknown ctx sessionID messageID =>
    (MessageJournal.markInputUnknown limits ctx sessionID messageID).forget
  | .resolveUnknownInput ctx sessionID messageID sequence outcome =>
    (MessageJournal.resolveUnknownInput limits ctx sessionID messageID sequence outcome).forget
  | .resolveAcceptedInput ctx sessionID messageID sequence outcome =>
    (MessageJournal.resolveAcceptedInput limits ctx sessionID messageID sequence outcome).forget
  | .retryInput ctx sessionID messageID =>
    (MessageJournal.retryInput limits ctx sessionID messageID).forget
  | .beginInputRecovery ctx sessionID token legacyBlockedOnly =>
    (MessageJournal.beginInputRecovery limits ctx sessionID token legacyBlockedOnly).forget
  | .commitInputRecoverySkip ctx sessionID token =>
    MessageJournal.commitInputRecoverySkip limits ctx sessionID token
  | .commitInputRecoveryAttach ctx sessionID token =>
    MessageJournal.commitInputRecoveryAttach limits ctx sessionID token
  | .enqueueOutput ctx sessionID operationID kind payload =>
    (MessageJournal.enqueueOutput limits ctx sessionID operationID kind payload).forget
  | .leaseNextOutput ctx sessionIDs owner now duration =>
    (MessageJournal.leaseNextOutputForSessions limits ctx sessionIDs owner now duration).forget
  | .supersedePendingOutputs ctx sessionID keepOperationID kinds =>
    (MessageJournal.supersedePendingOutputs limits ctx sessionID keepOperationID kinds).forget
  | .confirmOutput ctx sessionID operationID owner receipt =>
    (MessageJournal.confirmOutput limits ctx sessionID operationID owner receipt).forget
  | .markOutputFailed ctx sessionID operationID owner =>
    (MessageJournal.markOutputFailed limits ctx sessionID operationID owner).forget
  | .markOutputUnknown ctx sessionID operationID owner =>
    (MessageJournal.markOutputUnknown limits ctx sessionID operationID owner).forget
  | .retryOutput ctx sessionID operationID =>
    (MessageJournal.retryOutput limits ctx sessionID operationID).forget

/-- The change of an operation: the document it leaves, or the error of its guard. -/
def Op.change (limits : Limits) (op : Op) (loaded : Document) : Except Err Document :=
  ((op.call limits).change loaded).2

/-- The file that an operation leaves. -/
def Op.step : Disk := ((op.call limits).run limits faults disk).2

/-- The error that an operation returns. -/
def Op.error : Option Err := ((op.call limits).run limits faults disk).1.2

/-- Whether the operation's own argument checks pass, so that its change runs. -/
def Op.admitted : Prop := (op.call limits).early = none

/-! ## One shape for all changes -/

/-- The sessions that an operation may change. -/
def Op.sessionIDs : Op → List GoString
  | .enqueueInput _ sessionID _ _ _ | .leaseNextInput _ sessionID _ _ _
  | .markInputAccepted _ sessionID _ _ | .replaceLeasedInputPayload _ sessionID _ _ _ _
  | .releaseInputLease _ sessionID _ _ | .markInputDeliveryFailed _ sessionID _ _
  | .markInputDeliveryUnknown _ sessionID _ _ | .completeInput _ sessionID _
  | .failInput _ sessionID _ | .markInputUnknown _ sessionID _
  | .resolveUnknownInput _ sessionID _ _ _ | .resolveAcceptedInput _ sessionID _ _ _
  | .retryInput _ sessionID _ | .beginInputRecovery _ sessionID _ _
  | .commitInputRecoverySkip _ sessionID _ | .commitInputRecoveryAttach _ sessionID _
  | .enqueueOutput _ sessionID _ _ _ | .supersedePendingOutputs _ sessionID _ _
  | .confirmOutput _ sessionID _ _ _ | .markOutputFailed _ sessionID _ _
  | .markOutputUnknown _ sessionID _ _ | .retryOutput _ sessionID _ => [sessionID]
  | .leaseNextOutput _ sessionIDs _ _ _ => sessionIDs

/-- Whether an operation appends a session that is not there. -/
def Op.creates : Op → Bool
  | .enqueueInput .. | .enqueueOutput .. => true
  | _ => false

/-- What an operation makes of the session it finds. -/
def Op.onSession : Op → SessionRecord → Except Err SessionRecord
  | .enqueueInput _ _ messageID payload attachments, s =>
    (enqueueInputRecord limits messageID payload attachments s).2
  | .leaseNextInput _ _ owner now duration, s => (leaseNextInputRecord owner now duration s).2
  | .markInputAccepted _ _ messageID owner, s =>
    (transitionInputRecord messageID (acceptTransition owner) s).2
  | .replaceLeasedInputPayload _ _ messageID owner sequence payload, s =>
    (transitionInputRecord messageID (replaceTransition owner sequence payload) s).2
  | .releaseInputLease _ _ messageID owner, s =>
    (transitionInputRecord messageID (releaseTransition owner) s).2
  | .markInputDeliveryFailed _ _ messageID owner, s =>
    (transitionInputRecord messageID (deliveryTransition .failed owner) s).2
  | .markInputDeliveryUnknown _ _ messageID owner, s =>
    (transitionInputRecord messageID (deliveryTransition .unknown owner) s).2
  | .completeInput _ _ messageID, s =>
    (transitionInputRecord messageID (outcomeTransition 0 .completed .accepted) s).2
  | .failInput _ _ messageID, s =>
    (transitionInputRecord messageID (outcomeTransition 0 .failed .accepted) s).2
  | .markInputUnknown _ _ messageID, s =>
    (transitionInputRecord messageID (outcomeTransition 0 .unknown .accepted) s).2
  | .resolveUnknownInput _ _ messageID sequence outcome, s =>
    (transitionInputRecord messageID (outcomeTransition sequence outcome .unknown) s).2
  | .resolveAcceptedInput _ _ messageID sequence outcome, s =>
    (transitionInputRecord messageID (outcomeTransition sequence outcome .accepted) s).2
  | .retryInput _ _ messageID, s => (transitionInputRecord messageID (retryTransition limits) s).2
  | .beginInputRecovery _ _ token legacyBlockedOnly, s =>
    (beginRecovery token legacyBlockedOnly s).2
  | .commitInputRecoverySkip _ _ token, s => (commitRecovery token .committed skipUnresolved s).2
  | .commitInputRecoveryAttach _ _ token, s => (commitRecovery token .attached skipAmbiguous s).2
  | .enqueueOutput _ _ operationID kind payload, s =>
    (enqueueOutputRecord limits operationID kind payload s).2
  | .leaseNextOutput _ _ owner now duration, s =>
    match leaseNextOutputRecord owner now duration s with
    | none => .error (err .noAvailable)
    | some (_, s) => .ok s
  | .supersedePendingOutputs _ _ keepOperationID kinds, s =>
    (supersedeRecords keepOperationID kinds s).2
  | .confirmOutput _ _ operationID owner receipt, s =>
    (transitionOutputRecord operationID (confirmTransition owner receipt) s).2
  | .markOutputFailed _ _ operationID owner, s =>
    (transitionOutputRecord operationID (finishTransition owner .failed) s).2
  | .markOutputUnknown _ _ operationID owner, s =>
    (transitionOutputRecord operationID (finishTransition owner .unknown) s).2
  | .retryOutput _ _ operationID, s =>
    (transitionOutputRecord operationID retryOutputTransition s).2

end

/-- The session that an operation finds in `loaded`: one that is there, or by an enqueue an empty
one that it appends, to give the document `found`. -/
inductive Op.Finds (limits : Limits) (op : Op) (loaded : Document) :
    Document → SessionRecord → Prop where
  /-- The session is there. -/
  | existing {s : SessionRecord} : s.sessionID ∈ op.sessionIDs →
      sessionAt loaded s.sessionID = some s → Op.Finds limits op loaded loaded s
  /-- An enqueue appends it. -/
  | created {sessionID : GoString} : op.creates → sessionID ∈ op.sessionIDs →
      sessionAt loaded sessionID = none → loaded.sessions.length ≠ limits.maxSessions →
      Op.Finds limits op loaded { loaded with sessions := loaded.sessions ++ [{ sessionID }] }
        { sessionID }

variable {loaded d : Document} {sessionID : GoString} {s : SessionRecord} {α : Type}
  {found : Except Err (Document × SessionRecord)} {limits : Limits} {zero : α}

/-- A session that a search returns has the id searched for. -/
theorem sessionID_of_sessionAt
    (h : sessionAt loaded sessionID = some s) : s.sessionID = sessionID := by
  simpa using find?_some h

variable {d' : Document}

/-- A change of one session succeeds exactly when its parts do. -/
theorem changeSession_eq_ok {change : SessionRecord → α × Except Err SessionRecord} :
    (changeSession found zero change).2 = .ok d' ↔
      ∃ d s s', found = .ok (d, s) ∧ (change s).2 = .ok s' ∧ d' = d.setSession s' := by
  unfold changeSession
  rcases found with e | ⟨d, s⟩
  · simp
  rcases hc : change s with ⟨r, e | s'⟩
  · simp [hc]
  · simp [hc, eq_comm]

variable {e : Err}

theorem findSession_eq_ok :
    findSession loaded sessionID e = .ok (d, s) ↔ d = loaded ∧ sessionAt loaded sessionID = some s := by
  unfold findSession
  cases sessionAt loaded sessionID <;> simp [eq_comm]

theorem createSession_eq_ok (h : createSession loaded sessionID limits = .ok (d, s)) :
    (d = loaded ∧ sessionAt loaded sessionID = some s) ∨
      (sessionAt loaded sessionID = none ∧ loaded.sessions.length ≠ limits.maxSessions ∧
        d = { loaded with sessions := loaded.sessions ++ [{ sessionID }] } ∧
        s = { sessionID }) := by
  unfold createSession at h
  rcases hs : sessionAt loaded sessionID with _ | t
  · simp only [hs] at h
    split_ifs at h with hfull
    simp only [ok.injEq, Prod.mk.injEq] at h
    exact .inr ⟨rfl, hfull, h.1.symm, h.2.symm⟩
  simp only [hs, ok.injEq, Prod.mk.injEq] at h
  exact .inl ⟨h.1.symm, by rw [h.2]⟩

theorem changeSession_find_eq_ok {change : SessionRecord → α × Except Err SessionRecord}
    (h : (changeSession (findSession loaded sessionID e) zero change).2 = .ok d') :
    ∃ s s', s.sessionID = sessionID ∧ sessionAt loaded s.sessionID = some s ∧
      (change s).2 = .ok s' ∧ d' = loaded.setSession s' := by
  obtain ⟨d, s, s', hfound, hs', rfl⟩ := changeSession_eq_ok.mp h
  obtain ⟨rfl, hs⟩ := findSession_eq_ok.mp hfound
  have hid := sessionID_of_sessionAt hs
  exact ⟨s, s', hid, by rw [hid]; exact hs, hs', rfl⟩

theorem changeSession_find_fst {change : SessionRecord → α × Except Err SessionRecord}
    (hs : sessionAt loaded sessionID = some s) :
    (changeSession (findSession loaded sessionID e) zero change).1 = (change s).1 := by
  simp only [changeSession, findSession, hs]
  rcases change s with ⟨result, e | s'⟩ <;> rfl

/-- The error of a change of a session that must be there. -/
theorem changeSession_find_eq_error {missing : Err}
    {change : SessionRecord → α × Except Err SessionRecord}
    (h : (changeSession (findSession loaded sessionID missing) zero change).2 = .error e) :
    e = missing ∨ ∃ s, sessionAt loaded sessionID = some s ∧ (change s).2 = .error e := by
  unfold changeSession findSession at h
  rcases hs : sessionAt loaded sessionID with _ | s
  · simp only [hs, error.injEq] at h
    exact .inl h.symm
  refine .inr ⟨s, rfl, ?_⟩
  simp only [hs] at h
  rcases hc : change s with ⟨result, e' | s'⟩
  · simp only [hc, error.injEq] at h
    rw [h]
  · simp [hc] at h

/-- The context's check before the session is looked up. -/
theorem changeSession_recheck {ctx : Context}
    {change : SessionRecord → α × Except Err SessionRecord}
    (h : (changeSession (do recheckContext ctx; found) zero change).2 = .ok d') :
    (changeSession found zero change).2 = .ok d' := by
  unfold recheckContext at h
  cases hc : ctx.cancelledLater with
  | false => simpa [hc, refuse, bind, Except.bind] using h
  | true => simp [hc, refuse, bind, Except.bind, changeSession] at h

/-- The lease of an output changes one of the sessions it was given. -/
theorem leaseOutputLoop_eq_ok {owner : GoString} {now : Time} {duration : Int}
    {sessionIDs : List GoString}
    (h : (leaseOutputLoop owner now duration loaded sessionIDs).2 = .ok d') :
    ∃ s output s', s.sessionID ∈ sessionIDs ∧ sessionAt loaded s.sessionID = some s ∧
      leaseNextOutputRecord owner now duration s = some (output, s') ∧
      (leaseOutputLoop owner now duration loaded sessionIDs).1 = output ∧
      d' = loaded.setSession s' := by
  induction sessionIDs with
  | nil => simp [leaseOutputLoop] at h
  | cons sessionID rest ih =>
    simp only [leaseOutputLoop] at h ⊢
    rcases hs : sessionAt loaded sessionID with _ | s
    · simp only [hs] at h ⊢
      obtain ⟨s, output, s', hmem, hrest⟩ := ih h
      exact ⟨s, output, s', mem_cons_of_mem _ hmem, hrest⟩
    simp only [hs] at h ⊢
    rcases hl : leaseNextOutputRecord owner now duration s with _ | ⟨output, s'⟩
    · simp only [hl] at h ⊢
      obtain ⟨t, output, s', hmem, hrest⟩ := ih h
      exact ⟨t, output, s', mem_cons_of_mem _ hmem, hrest⟩
    simp only [hl, ok.injEq] at h ⊢
    have hid := sessionID_of_sessionAt hs
    exact ⟨s, output, s', by rw [hid]; exact mem_cons_self, by rw [hid]; exact hs, hl, rfl, h.symm⟩

/-- Every accepted change finds a session, computes the session it becomes and writes it back. -/
theorem Op.change_eq_ok {op : Op} (h : op.change limits loaded = .ok d') :
    ∃ found s s', op.Finds limits loaded found s ∧ op.onSession limits s = .ok s' ∧
      d' = found.setSession s' := by
  -- An operation on a session that must be there.
  have hfind : ∀ {α : Type} {sessionID : GoString} {e : Err} {zero : α}
      {change : SessionRecord → α × Except Err SessionRecord},
      op.sessionIDs = [sessionID] → (∀ s, (change s).2 = op.onSession limits s) →
      (changeSession (findSession loaded sessionID e) zero change).2 = .ok d' →
      ∃ found s s', op.Finds limits loaded found s ∧ op.onSession limits s = .ok s' ∧
        d' = found.setSession s' := by
    intro α sessionID e zero change hids hchange hok
    obtain ⟨s, s', hid, hs, hs', rfl⟩ := changeSession_find_eq_ok hok
    exact ⟨loaded, s, s', .existing (by rw [hids, hid]; exact mem_singleton_self _) hs,
      by rw [← hchange]; exact hs', rfl⟩
  -- An enqueue.
  have hcreate : ∀ {α : Type} {sessionID : GoString} {zero : α}
      {change : SessionRecord → α × Except Err SessionRecord},
      op.creates → op.sessionIDs = [sessionID] →
      (∀ s, (change s).2 = op.onSession limits s) →
      (changeSession (createSession loaded sessionID limits) zero change).2 = .ok d' →
      ∃ found s s', op.Finds limits loaded found s ∧ op.onSession limits s = .ok s' ∧
        d' = found.setSession s' := by
    intro α sessionID zero change hcreates hids hchange hok
    obtain ⟨d, s, s', hfound, hs', rfl⟩ := changeSession_eq_ok.mp hok
    refine ⟨d, s, s', ?_, by rw [← hchange]; exact hs', rfl⟩
    rcases createSession_eq_ok hfound with ⟨rfl, hs⟩ | ⟨hnone, hfull, rfl, rfl⟩
    · have hid := sessionID_of_sessionAt hs
      exact .existing (by rw [hids, hid]; exact mem_singleton_self _) (by rw [hid]; exact hs)
    · exact .created hcreates (by rw [hids]; exact mem_singleton_self _) hnone hfull
  cases op with
  | enqueueInput | enqueueOutput => exact hcreate rfl rfl (fun _ => rfl) (changeSession_recheck h)
  | beginInputRecovery | commitInputRecoverySkip | commitInputRecoveryAttach =>
    exact hfind rfl (fun _ => rfl) (changeSession_recheck h)
  | leaseNextOutput ctx sessionIDs owner now duration =>
    have h' : (leaseOutputLoop owner now duration loaded sessionIDs).2 = .ok d' := by
      cases sessionIDs with
      | nil => simp [Op.change, Op.call, Call.forget, leaseNextOutputForSessions] at h
      | cons => exact h
    obtain ⟨s, output, s', hmem, hs, hl, -, rfl⟩ := leaseOutputLoop_eq_ok h'
    exact ⟨loaded, s, s', .existing hmem hs, by simp only [Op.onSession, hl], rfl⟩
  | resolveUnknownInput =>
    simp only [Op.change, Op.call, Call.forget, MessageJournal.resolveUnknownInput,
      Call.refusing_change] at h
    exact hfind rfl (fun _ => rfl) h
  | resolveAcceptedInput =>
    simp only [Op.change, Op.call, Call.forget, MessageJournal.resolveAcceptedInput,
      Call.refusing_change] at h
    exact hfind rfl (fun _ => rfl) h
  | leaseNextInput | markInputAccepted | replaceLeasedInputPayload | releaseInputLease
  | markInputDeliveryFailed | markInputDeliveryUnknown | completeInput | failInput
  | markInputUnknown | retryInput | supersedePendingOutputs | confirmOutput | markOutputFailed
  | markOutputUnknown | retryOutput => exact hfind rfl (fun _ => rfl) h

end Bria.MessageJournal
