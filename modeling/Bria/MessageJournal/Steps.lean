import Bria.MessageJournal.Closure

/-!
# Steps of the journal file

A step is an operation together with the file-system failures it meets, and a run is a list of
steps. A step that changes the file replaces it by the encoding of a changed document
(`Op.step_cases`), so a session that is loaded before a step and after it has made one move, and
then the trip through JSON (`Op.step_session`). What identifies a record is kept by both, so a
record is followed through a run by its ids.
-/

namespace Bria.MessageJournal

open Go

/-- An operation and the failures of the file system while it runs. -/
structure Event where
  /-- The operation. -/
  op : Op
  /-- The steps that fail. -/
  faults : Faults := {}

/-- The file after a run. -/
def run (limits : Limits) (disk : Disk) (events : List Event) : Disk :=
  events.foldl (fun disk event => event.op.step limits event.faults disk) disk

@[simp]
theorem run_cons (limits : Limits) (disk : Disk) (event : Event) (events : List Event) :
    run limits disk (event :: events) =
      run limits (event.op.step limits event.faults disk) events :=
  rfl

theorem run_append (limits : Limits) (disk : Disk) (events later : List Event) :
    run limits disk (events ++ later) = run limits (run limits disk events) later :=
  List.foldl_append

variable {limits : Limits} {op : Op} {faults : Faults} {disk : Disk} {events : List Event}
  {r : OutputRecord}

/-- A step leaves the file, or replaces it by the encoding of a changed document. -/
theorem Op.step_cases (limits : Limits) (op : Op) (faults : Faults) (disk : Disk) :
    op.step limits faults disk = disk ∨
      ∃ d d', read limits disk = .ok d ∧ op.admitted limits ∧ op.change limits d = .ok d' ∧
        d'.Valid limits ∧ (marshal d').size ≤ limits.maxFileBytes ∧
        op.step limits faults disk = .stored (marshal d') := by
  unfold Op.step
  rcases (op.call limits).run_cases limits faults disk with ⟨result, -, h⟩ | ⟨-, e, h⟩ |
    ⟨-, d, e, -, -, h⟩ | ⟨hearly, -, -, d, d', hread, hchange, h⟩
  · exact .inl (by rw [h])
  · exact .inl (by rw [h])
  · exact .inl (by rw [h])
  by_cases hfits : d'.Valid limits ∧ (marshal d').size ≤ limits.maxFileBytes ∧ faults.write = false
  · obtain ⟨hvalid, hsize, hwrite⟩ := hfits
    have hdisk := (persist_replaced disk hvalid hsize hwrite).1
    exact .inr ⟨d, d', hread, hearly, hchange, hvalid, hsize, by rw [h, hdisk]⟩
  obtain ⟨e, he⟩ := persist_kept disk hfits
  exact .inl (by rw [h, he])

variable {d : Document}

/-- The strings of a document that is read are valid UTF-8. -/
theorem encoded_of_read (h : read limits disk = .ok d) : d.Encoded := by
  cases disk with
  | missing =>
    simp only [read, ok.injEq] at h
    subst h
    simp [Document.Encoded, emptyDocument]
  | unreadable => simp [read] at h
  | stored file =>
    simp only [read, check_eq_ok, ok.injEq] at h
    obtain ⟨-, -, -, rfl⟩ := h
    have hencoded := file.encoded
    unfold upgrade
    split_ifs <;> exact hencoded

variable {d' : Document}

/-- A file that does not load stays as it is. -/
theorem read_of_read_step (h : read limits (op.step limits faults disk) = .ok d') :
    ∃ d, read limits disk = .ok d := by
  rcases Op.step_cases limits op faults disk with heq | ⟨d, -, hread, -⟩
  · exact ⟨d', by rw [← heq]; exact h⟩
  · exact ⟨d, hread⟩

/-- If a file loads after a run, it did before. -/
theorem read_of_read_run (h : read limits (run limits disk events) = .ok d') :
    ∃ d, read limits disk = .ok d := by
  induction events generalizing disk with
  | nil => exact ⟨d', h⟩
  | cons event events ih =>
    obtain ⟨d, hd⟩ := ih h
    exact read_of_read_step hd

variable {d1 : Document}

/-- Following a part of the document through a run: what relates it before and after a step, and
composes, relates it before and after the run. -/
theorem run_follow {ρ : Type} {find : Document → Option ρ} {K : Disk → List Event → ρ → ρ → Prop}
    (hrefl : ∀ disk r, K disk [] r r)
    (htrans : ∀ {disk events later r r1 r2}, K disk events r r1 →
      K (run limits disk events) later r1 r2 → K disk (events ++ later) r r2)
    (hstep : ∀ {disk op faults d d1 r}, read limits disk = .ok d →
      read limits (Op.step limits op faults disk) = .ok d1 → find d = some r →
      ∃ r1, find d1 = some r1 ∧ K disk [⟨op, faults⟩] r r1) {r : ρ}
    (hread : read limits disk = .ok d) (hread1 : read limits (run limits disk events) = .ok d1)
    (hr : find d = some r) : ∃ r1, find d1 = some r1 ∧ K disk events r r1 := by
  induction events generalizing disk d r with
  | nil =>
    obtain rfl : d = d1 := ok.inj (hread.symm.trans hread1)
    exact ⟨r, hr, hrefl disk r⟩
  | cons event events ih =>
    rw [run_cons] at hread1
    obtain ⟨d', hread'⟩ := read_of_read_run hread1
    obtain ⟨r', hr', hfirst⟩ := hstep hread hread' hr
    obtain ⟨r1, hr1, hrest⟩ := ih hread' hread1 hr'
    exact ⟨r1, hr1, htrans hfirst hrest⟩

/-! ## Sessions -/

/-- A move of the session an operation works on; any other session stays. -/
inductive SessionStep (limits : Limits) (op : Op) (s : SessionRecord) : SessionRecord → Prop where
  /-- The session stays. -/
  | stay : SessionStep limits op s s
  /-- The operation changes it. -/
  | move {s' : SessionRecord} (named : s.sessionID ∈ op.sessionIDs)
      (move : SessionMove limits op s s') : SessionStep limits op s s'

variable {s s' : SessionRecord}

/-- A move keeps the session's id. -/
theorem SessionMove.sessionID (h : SessionMove limits op s s') : s'.sessionID = s.sessionID := by
  cases h <;> rfl

/-- The session that moves is found under the id of the one that it becomes. -/
theorem SessionMove.find?_sessions {d : Document} (h : SessionMove limits op s s')
    (hs : sessionAt d s.sessionID = some s) :
    d.sessions.find? (·.sessionID = s'.sessionID) = some s := by
  rw [h.sessionID]
  exact hs

/-- A step keeps the session's id. -/
theorem SessionStep.sessionID (h : SessionStep limits op s s') : s'.sessionID = s.sessionID := by
  cases h with
  | stay => rfl
  | move _ h => exact h.sessionID

variable {sessionID : GoString}

/-- The document that an enqueue leaves when it appends the session. -/
theorem setSession_append (hnone : sessionAt d sessionID = none) (hid : s'.sessionID = sessionID) :
    ({ d with sessions := d.sessions ++ [{ sessionID }] } : Document).setSession s' =
      { d with sessions := d.sessions ++ [s'] } := by
  have hfresh : ∀ x ∈ d.sessions, decide (x.sessionID = s'.sessionID) = false := by
    rw [hid]
    simpa using List.find?_eq_none.mp hnone
  simp only [Document.setSession]
  rw [Table.replaceFirst_append hfresh (by simp [hid])]

/-- A change moves one session and appends at most one. -/
theorem Op.change_sessions (h : op.change limits d = .ok d') :
    Table.Evolves (fun s s' => s ∈ d.sessions ∧ SessionStep limits op s s') d.sessions
      d'.sessions := by
  obtain ⟨found, s, s', hfinds, hsession, rfl⟩ := Op.change_eq_ok h
  have hmove := Op.sessionMove hsession
  cases hfinds with
  | existing hmem hs =>
    have hfound := hmove.find?_sessions hs
    exact .replaceFirst hfound ⟨mem_of_sessionAt hs, .move hmem hmove⟩ fun x hx => ⟨hx, .stay⟩
  | @created sessionID _ _ hnone _ =>
    rw [setSession_append hnone hmove.sessionID]
    exact .append (fun x hx => ⟨hx, .stay⟩) [s']

/-- A session that is loaded before a step and after it made one step of its own. If the file was
replaced, it then went through JSON. -/
theorem Op.step_session (hread : read limits disk = .ok d)
    (hread1 : read limits (op.step limits faults disk) = .ok d1)
    (hs : sessionAt d sessionID = some s) :
    sessionAt d1 sessionID = some s ∨
      ∃ s', op.admitted limits ∧ SessionStep limits op s s' ∧
        sessionAt d1 sessionID = some s'.reencode := by
  rcases Op.step_cases limits op faults disk with heq | ⟨d0, d', hd0, hadm, hchange, hvalid,
    hsize, heq⟩
  · -- The file is as it was.
    rw [heq, hread, ok.injEq] at hread1
    exact .inl (by rw [← hread1]; exact hs)
  obtain rfl : d = d0 := ok.inj (hread.symm.trans hd0)
  rw [heq, read_marshal hvalid.version hsize] at hread1
  obtain ⟨rfl, -⟩ := hread1
  have hencoded := encoded_of_read hread
  have hev := (Op.change_sessions hchange).map_right (f := SessionRecord.reencode)
  -- Ids that came from the file are text already.
  have hids : ∀ a b, (∃ c, (a ∈ d.sessions ∧ SessionStep limits op a c) ∧ b = c.reencode) →
      decide (b.sessionID = sessionID) = decide (a.sessionID = sessionID) := by
    rintro a _ ⟨c, ⟨ha, hac⟩, rfl⟩
    simp only [SessionRecord.reencode, hac.sessionID, (hencoded a ha).sessionID]
  obtain ⟨_, hfind, s', ⟨-, hstep⟩, rfl⟩ := hev.find? hids hs
  exact .inr ⟨s', hadm, hstep, hfind⟩

/-! ## Records -/

/-- What an operation makes of one input of the session `s`. -/
inductive InputStep (limits : Limits) (op : Op) (s : SessionRecord) :
    InputRecord → InputRecord → Prop where
  /-- The input stays. -/
  | stay {r : InputRecord} : InputStep limits op s r r
  /-- The operation writes it. -/
  | move {r r' : InputRecord} (named : s.sessionID ∈ op.sessionIDs)
      (move : InputMove limits s op r r') : InputStep limits op s r r'
  /-- The commit of a recovery covers it. -/
  | commit {r : InputRecord} {token : GoString} {through : Nat} {phase : InputRecoveryPhase}
      {f : InputRecord → InputRecord} (named : s.sessionID ∈ op.sessionIDs)
      (commit_eq : op.commit = some (token, phase, f))
      (opened : s.recovery = some ⟨token, through, .opened⟩) (below : r.sequence ≤ through) :
      InputStep limits op s r (f r)

/-- What an operation makes of one output of the session `s`. -/
inductive OutputStep (op : Op) (s : SessionRecord) : OutputRecord → OutputRecord → Prop where
  /-- The output stays. -/
  | stay {r : OutputRecord} : OutputStep op s r r
  /-- The operation writes it. -/
  | move {r r' : OutputRecord} (named : s.sessionID ∈ op.sessionIDs) (move : OutputMove s op r r') :
      OutputStep op s r r'
  /-- The sweep reaches it. -/
  | supersede {r : OutputRecord} {ctx : Context} {sessionID keepOperationID : GoString}
      {kinds : List GoString} {keepSequence : Nat}
      (op_eq : op = .supersedePendingOutputs ctx sessionID keepOperationID kinds)
      (swept : supersedable keepOperationID keepSequence kinds r) :
      OutputStep op s r { r with phase := .superseded }

theorem InputStep.identity {r r' : InputRecord} (h : InputStep limits op s r r') :
    r'.messageID = r.messageID ∧ r'.sequence = r.sequence := by
  cases h with
  | stay => exact ⟨rfl, rfl⟩
  | move _ h => exact ⟨h.identity.1, h.identity.2.1⟩
  | commit _ hcommit =>
    rcases (Op.commit_cases hcommit r).1 with h | h <;> rw [h] <;> exact ⟨rfl, rfl⟩

theorem OutputStep.identity {r' : OutputRecord} (h : OutputStep op s r r') :
    r'.operationID = r.operationID ∧ r'.sequence = r.sequence ∧ r'.kind = r.kind ∧
      r'.payload = r.payload := by
  cases h with
  | stay | supersede => exact ⟨rfl, rfl, rfl, rfl⟩
  | move _ h => exact h.identity

theorem SessionStep.inputs (h : SessionStep limits op s s') (hs : s.Valid limits) :
    Table.Evolves (fun r r' => r ∈ s.inputs ∧ InputStep limits op s r r') s.inputs s'.inputs := by
  cases h with
  | stay => exact .refl fun r hr => ⟨hr, .stay⟩
  | move named h =>
    cases h with
    | enqueueInput => exact .append (fun r hr => ⟨hr, .stay⟩) _
    | writeInput hfound hmove =>
      exact .replaceFirst hfound ⟨mem_of_find?_eq_some hfound, .move named hmove⟩
        fun r hr => ⟨hr, .stay⟩
    | commit hcommit hopened =>
      rw [applyThrough_eq_map (pairwise_cons.mp hs.inputOrder).2]
      refine .map fun r hr => ⟨hr, ?_⟩
      split_ifs with hle
      · exact .commit named hcommit hopened hle
      · exact .stay
    | takeOver | openBoundary | enqueueOutput | writeOutput | supersede =>
      exact .refl fun r hr => ⟨hr, .stay⟩

theorem SessionStep.outputs (h : SessionStep limits op s s') :
    Table.Evolves (fun r r' => r ∈ s.outputs ∧ OutputStep op s r r') s.outputs s'.outputs := by
  cases h with
  | stay => exact .refl fun r hr => ⟨hr, .stay⟩
  | move named h =>
    cases h with
    | enqueueOutput => exact .append (fun r hr => ⟨hr, .stay⟩) _
    | writeOutput hfound hmove =>
      exact .replaceFirst hfound ⟨mem_of_find?_eq_some hfound, .move named hmove⟩
        fun r hr => ⟨hr, .stay⟩
    | supersede heq =>
      refine .map fun r hr => ⟨hr, ?_⟩
      unfold supersedeRecord
      split_ifs with hswept
      · exact .supersede heq hswept
      · exact .stay
    | enqueueInput | writeInput | takeOver | openBoundary | commit =>
      exact .refl fun r hr => ⟨hr, .stay⟩

/-- The input of a session that has the message id. -/
def lookupInput (d : Document) (sessionID messageID : GoString) : Option InputRecord :=
  (sessionAt d sessionID).bind fun s => s.inputs.find? (·.messageID = messageID)

/-- The output of a session that has the operation id. -/
def lookupOutput (d : Document) (sessionID operationID : GoString) : Option OutputRecord :=
  (sessionAt d sessionID).bind fun s => s.outputs.find? (·.operationID = operationID)

section

variable (hread : read limits disk = .ok d)
  (hread1 : read limits (op.step limits faults disk) = .ok d1)
include hread hread1

/-- An input that is loaded before a step is loaded after it, with one step of its own. If the
file was replaced, it then went through JSON, as it had before. -/
theorem Op.step_input {messageID : GoString} {r : InputRecord}
    (hr : lookupInput d sessionID messageID = some r) :
    ∃ r1, lookupInput d1 sessionID messageID = some r1 ∧
      (r1 = r ∨ ∃ s r', sessionAt d sessionID = some s ∧ r.Encoded ∧ op.admitted limits ∧
        InputStep limits op s r r' ∧ r1 = r'.reencode) := by
  obtain ⟨s, hs, hfind⟩ := bind_eq_some_iff.mp hr
  rcases Op.step_session hread hread1 hs with hs1 | ⟨s', hadm, hstep, hs1⟩
  · exact ⟨r, by simp [lookupInput, hs1, hfind], .inl rfl⟩
  have hmem := mem_of_sessionAt hs
  have hencoded := encoded_of_read hread s hmem
  have hev := (hstep.inputs ((valid_of_read hread).sessions s hmem)).map_right
    (f := InputRecord.reencode)
  have hids : ∀ a b, (∃ c, (a ∈ s.inputs ∧ InputStep limits op s a c) ∧ b = c.reencode) →
      decide (b.messageID = messageID) = decide (a.messageID = messageID) := by
    rintro a _ ⟨c, ⟨ha, hac⟩, rfl⟩
    simp only [InputRecord.reencode, hac.identity.1, (hencoded.inputs a ha).messageID]
  obtain ⟨r1, hfind1, r', ⟨hrmem, hr'⟩, rfl⟩ := hev.find? hids hfind
  refine ⟨_, ?_, .inr ⟨s, r', hs, hencoded.inputs r hrmem, hadm, hr', rfl⟩⟩
  simp only [lookupInput, hs1, bind_some]
  exact hfind1

/-- An output that is loaded before a step is loaded after it, with one step of its own. If the
file was replaced, it then went through JSON. -/
theorem Op.step_output {operationID : GoString}
    (hr : lookupOutput d sessionID operationID = some r) :
    ∃ r1, lookupOutput d1 sessionID operationID = some r1 ∧
      (r1 = r ∨ ∃ s r', sessionAt d sessionID = some s ∧ r.Encoded ∧ OutputStep op s r r' ∧
        r1 = r'.reencode) := by
  obtain ⟨s, hs, hfind⟩ := bind_eq_some_iff.mp hr
  rcases Op.step_session hread hread1 hs with hs1 | ⟨s', -, hstep, hs1⟩
  · exact ⟨r, by simp [lookupOutput, hs1, hfind], .inl rfl⟩
  have hencoded := encoded_of_read hread s (mem_of_sessionAt hs)
  have hev := hstep.outputs.map_right (f := OutputRecord.reencode)
  have hids : ∀ a b, (∃ c, (a ∈ s.outputs ∧ OutputStep op s a c) ∧ b = c.reencode) →
      decide (b.operationID = operationID) = decide (a.operationID = operationID) := by
    rintro a _ ⟨c, ⟨ha, hac⟩, rfl⟩
    simp only [OutputRecord.reencode, hac.identity.1, (hencoded.outputs a ha).operationID]
  obtain ⟨r1, hfind1, r', ⟨hrmem, hr'⟩, rfl⟩ := hev.find? hids hfind
  refine ⟨_, ?_, .inr ⟨s, r', hs, hencoded.outputs r hrmem, hr', rfl⟩⟩
  simp only [lookupOutput, hs1, bind_some]
  exact hfind1

end

end Bria.MessageJournal
