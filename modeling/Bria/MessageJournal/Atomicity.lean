import Bria.MessageJournal.Steps

/-!
# All or nothing

Whether an operation either changes the journal as it says or leaves it. `mutate` compares the
document that it reads back with the one it wrote only after the file was replaced, so the answer
depends on the trip through JSON: the trip keeps a document exactly when all its strings are valid
UTF-8 and none of its attachment slices is empty (`Document.reencode_eq_self_iff`). The strings of
a loaded document are, so what matters is the strings that the operation stores.
-/

namespace Bria.MessageJournal

open Go SessionRecord Table

/-! ## Documents that the trip keeps -/

/-- No input has an attachment slice that is empty but not nil. -/
def SessionRecord.NoEmptySlice (s : SessionRecord) : Prop := ∀ r ∈ s.inputs, r.attachments ≠ some []

/-- No input of any session has an attachment slice that is empty but not nil. -/
def Document.NoEmptySlice (d : Document) : Prop := ∀ s ∈ d.sessions, s.NoEmptySlice

theorem reencodeAttachments_eq_self_iff {attachments : Option (List AttachmentRecord)} :
    reencodeAttachments attachments = attachments ↔
      (∀ a ∈ attachments.getD [], a.Encoded) ∧ attachments ≠ some [] := by
  rcases attachments with _ | _ | ⟨a, rest⟩
  · simp [reencodeAttachments]
  · simp [reencodeAttachments]
  · simp [reencodeAttachments, AttachmentRecord.Encoded, map_eq_self_iff]

theorem InputRecord.reencode_eq_self_iff {r : InputRecord} :
    r.reencode = r ↔ r.Encoded ∧ r.attachments ≠ some [] := by
  obtain ⟨messageID, sequence, payload, attachments, phase, owner, untilUnix⟩ := r
  simp only [InputRecord.reencode, LeaseRecord.reencode, InputRecord.mk.injEq,
    LeaseRecord.mk.injEq, reencodeAttachments_eq_self_iff, true_and, and_true]
  constructor
  · rintro ⟨hid, ⟨hatt, hne⟩, howner⟩
    exact ⟨⟨hid, hatt, howner⟩, hne⟩
  rintro ⟨⟨hid, hatt, howner⟩, hne⟩
  exact ⟨hid, ⟨hatt, hne⟩, howner⟩

theorem OutputRecord.reencode_eq_self_iff {r : OutputRecord} : r.reencode = r ↔ r.Encoded := by
  obtain ⟨operationID, sequence, kind, payload, phase, receipt, owner, untilUnix⟩ := r
  simp only [OutputRecord.reencode, LeaseRecord.reencode, OutputRecord.mk.injEq,
    LeaseRecord.mk.injEq, true_and, and_true]
  constructor
  all_goals
    rintro ⟨hid, hkind, hreceipt, howner⟩
    exact ⟨hid, hkind, hreceipt, howner⟩

theorem SessionRecord.reencode_eq_self_iff {s : SessionRecord} :
    s.reencode = s ↔ s.Encoded ∧ s.NoEmptySlice := by
  obtain ⟨sessionID, nextSequence, inputs, outputs, recovery⟩ := s
  have hrec : recovery.map InputRecoveryRecord.reencode = recovery ↔
      ∀ r, recovery = some r → jsonText r.token = r.token := by
    rcases recovery with _ | ⟨token, through, phase⟩
    · simp
    · simp [InputRecoveryRecord.reencode]
  simp only [reencode, mk.injEq, map_eq_self_iff, hrec, true_and,
    InputRecord.reencode_eq_self_iff, OutputRecord.reencode_eq_self_iff]
  constructor
  · rintro ⟨hid, hin, hout, hrec⟩
    exact ⟨⟨hid, fun r hr => (hin r hr).1, hout, hrec⟩, fun r hr => (hin r hr).2⟩
  rintro ⟨⟨hid, hin, hout, hrec⟩, hne⟩
  exact ⟨hid, fun r hr => ⟨hin r hr, hne r hr⟩, hout, hrec⟩

theorem Document.reencode_eq_self_iff {d : Document} :
    d.reencode = d ↔ d.Encoded ∧ d.NoEmptySlice := by
  obtain ⟨version, sessions⟩ := d
  simp only [Document.reencode, Document.mk.injEq, map_eq_self_iff, true_and,
    SessionRecord.reencode_eq_self_iff]
  exact forall₂_and

theorem Document.noEmptySlice_reencode (d : Document) : d.reencode.NoEmptySlice := by
  intro s hs r hr
  obtain ⟨s, -, rfl⟩ := mem_map.mp hs
  obtain ⟨r, -, rfl⟩ := mem_map.mp hr
  unfold InputRecord.reencode reencodeAttachments
  rcases r.attachments with _ | _ | ⟨a, rest⟩ <;> simp

/-! ## What an operation stores -/

/-- The strings that an operation writes into the document. -/
def Op.strings : Op → List GoString
  | .enqueueInput _ sessionID messageID _ attachments =>
    sessionID :: messageID :: attachments.flatMap fun a => [a.reference, a.sha256]
  | .leaseNextInput _ _ owner _ _ | .leaseNextOutput _ _ owner _ _ => [owner]
  | .beginInputRecovery _ _ token _ => [token]
  | .enqueueOutput _ sessionID operationID kind _ => [sessionID, operationID, kind]
  | .confirmOutput _ _ _ _ receipt => [receipt]
  | _ => []

/-- The strings that an operation stores are valid UTF-8. -/
def Op.Portable (op : Op) : Prop := ∀ text ∈ op.strings, validString text

/-- A begin that takes over an open boundary under a token whose JSON text is the token of the
boundary already. -/
def Op.RestoresToken (op : Op) (d : Document) : Prop :=
  ∃ ctx sessionID token legacyBlockedOnly s through,
    op = .beginInputRecovery ctx sessionID token legacyBlockedOnly ∧
      sessionAt d sessionID = some s ∧ s.recovery = some ⟨jsonText token, through, .opened⟩

variable {limits : Limits} {op : Op} {s s' : SessionRecord}

/-- A write of an input leaves text exactly when the operation stores text. -/
theorem InputMove.encoded_iff {r r' : InputRecord} (h : InputMove limits s op r r')
    (hr : r.Encoded) : r'.Encoded ↔ op.Portable := by
  have hnil : jsonText [] = [] := rfl
  cases h with
  | lease =>
    simp only [Op.Portable, Op.strings, forall_mem_singleton, ← jsonText_eq_self_iff]
    exact ⟨fun h => h.owner, fun h => ⟨hr.messageID, hr.attachments, h⟩⟩
  | accept | release | retry =>
    exact iff_of_true ⟨hr.messageID, hr.attachments, hnil⟩ (by simp [Op.Portable, Op.strings])
  | replace =>
    exact iff_of_true ⟨hr.messageID, hr.attachments, hr.owner⟩ (by simp [Op.Portable, Op.strings])
  | deliver heq =>
    refine iff_of_true ⟨hr.messageID, hr.attachments, hnil⟩ ?_
    cases op <;> simp [Op.delivery] at heq <;> simp [Op.Portable, Op.strings]
  | outcome heq =>
    refine iff_of_true ⟨hr.messageID, hr.attachments, hr.owner⟩ ?_
    cases op <;> simp [Op.outcome] at heq <;> simp [Op.Portable, Op.strings]

/-- A write of an output leaves text exactly when the operation stores text. -/
theorem OutputMove.encoded_iff {r r' : OutputRecord} (h : OutputMove s op r r')
    (hr : r.Encoded) : r'.Encoded ↔ op.Portable := by
  have hnil : jsonText [] = [] := rfl
  cases h with
  | lease =>
    simp only [Op.Portable, Op.strings, forall_mem_singleton, ← jsonText_eq_self_iff]
    exact ⟨fun h => h.owner, fun h => ⟨hr.operationID, hr.kind, hr.receipt, h⟩⟩
  | confirm =>
    simp only [Op.Portable, Op.strings, forall_mem_singleton, ← jsonText_eq_self_iff]
    exact ⟨fun h => h.receipt, fun h => ⟨hr.operationID, hr.kind, h, hnil⟩⟩
  | finish heq =>
    refine iff_of_true ⟨hr.operationID, hr.kind, hr.receipt, hnil⟩ ?_
    cases op <;> simp [Op.finish] at heq <;> simp [Op.Portable, Op.strings]
  | retry =>
    exact iff_of_true ⟨hr.operationID, hr.kind, hr.receipt, hnil⟩
      (by simp [Op.Portable, Op.strings])

/-- An input after the loop of a commit is one from before, treated or not. -/
theorem mem_applyThrough {through : Nat} {f : InputRecord → InputRecord} {inputs : List InputRecord}
    {x : InputRecord} (h : x ∈ applyThrough through f inputs) : ∃ r ∈ inputs, x = r ∨ x = f r := by
  induction inputs with
  | nil => simp [applyThrough] at h
  | cons r rest ih =>
    unfold applyThrough at h
    split_ifs at h
    · exact ⟨x, h, .inl rfl⟩
    rcases mem_cons.mp h with rfl | h
    · exact ⟨r, mem_cons_self, .inr rfl⟩
    obtain ⟨y, hy, hx⟩ := ih h
    exact ⟨y, mem_cons_of_mem _ hy, hx⟩

theorem encoded_attachmentRecords {attachments : List AttachmentRef} :
    (∀ a ∈ (attachmentRecords attachments).getD [], a.Encoded) ↔
      ∀ a ∈ attachments, jsonText a.reference = a.reference ∧ jsonText a.sha256 = a.sha256 := by
  unfold attachmentRecords
  split_ifs with h
  · simp [h]
  · simp [AttachmentRecord.Encoded, AttachmentRecord.reencode]

/-- The strings of a session apart from its id are text. -/
structure SessionRecord.TextInside (s : SessionRecord) : Prop where
  inputs : ∀ r ∈ s.inputs, r.Encoded
  outputs : ∀ r ∈ s.outputs, r.Encoded
  recovery : ∀ r, s.recovery = some r → jsonText r.token = r.token

/-- The session that a move leaves is text exactly when its id and what the operation stores
are. -/
theorem SessionMove.encoded_iff (hmove : SessionMove limits op s s')
    (hnamed : s.sessionID ∈ op.sessionIDs) (hs : s.TextInside) :
    s'.Encoded ↔ jsonText s.sessionID = s.sessionID ∧ op.Portable := by
  -- For an operation without strings only the id is left.
  have hplain : op.strings = [] → (∀ r ∈ s'.inputs, r.Encoded) → (∀ r ∈ s'.outputs, r.Encoded) →
      (∀ r, s'.recovery = some r → jsonText r.token = r.token) →
      (s'.Encoded ↔ jsonText s.sessionID = s.sessionID ∧ op.Portable) := by
    intro hnone hin hout hrec
    rw [← hmove.sessionID]
    exact ⟨fun h => ⟨h.sessionID, by simp [Op.Portable, hnone]⟩, fun h => ⟨h.1, hin, hout, hrec⟩⟩
  cases hmove with
  | enqueueInput heq =>
    subst heq
    simp only [Op.Portable, Op.strings, forall_mem_cons, List.forall_mem_flatMap,
      not_mem_nil, false_imp_iff, implies_true, and_true, ← jsonText_eq_self_iff]
    simp only [Op.sessionIDs, mem_singleton] at hnamed
    rw [← hnamed, ← encoded_attachmentRecords]
    constructor
    · intro h
      have hnew := h.inputs _ (mem_append_right _ (mem_singleton_self _))
      exact ⟨h.sessionID, h.sessionID, hnew.messageID, hnew.attachments⟩
    rintro ⟨hid, -, hmid, hatt⟩
    refine ⟨hid, forall_mem_append.mpr ⟨hs.inputs, ?_⟩, hs.outputs, hs.recovery⟩
    exact forall_mem_singleton.mpr ⟨hmid, hatt, rfl⟩
  | writeInput hfound hmove =>
    have hiff := hmove.encoded_iff (hs.inputs _ (mem_of_find?_eq_some hfound))
    constructor
    · intro h
      exact ⟨h.sessionID, hiff.mp (h.inputs _ (mem_replaceFirst_new hfound _))⟩
    rintro ⟨hid, hport⟩
    exact ⟨hid, forall_mem_written (hiff.mpr hport) hs.inputs, hs.outputs, hs.recovery⟩
  | takeOver heq | openBoundary heq =>
    subst heq
    simp only [Op.Portable, Op.strings, forall_mem_singleton, ← jsonText_eq_self_iff]
    constructor
    · intro h
      exact ⟨h.sessionID, h.recovery _ rfl⟩
    rintro ⟨hid, htoken⟩
    refine ⟨hid, hs.inputs, hs.outputs, fun r hr => ?_⟩
    obtain rfl := some.inj hr
    exact htoken
  | commit hcommit hopened =>
    refine hplain (by cases op <;> simp [Op.commit] at hcommit <;> rfl) ?_ hs.outputs ?_
    · intro x hx
      obtain ⟨r, hr, hx⟩ := mem_applyThrough hx
      have henc := hs.inputs r hr
      have hskipped : ({ r with phase := .skipped, lease := {} } : InputRecord).Encoded :=
        ⟨henc.messageID, henc.attachments, rfl⟩
      rcases hx with rfl | rfl
      · exact henc
      · rcases (Op.commit_cases hcommit r).1 with h | h <;> rw [h] <;> assumption
    intro r hr
    obtain rfl := some.inj hr
    have htoken := hs.recovery _ hopened
    exact htoken
  | enqueueOutput heq =>
    subst heq
    simp only [Op.Portable, Op.strings, forall_mem_cons, not_mem_nil, false_imp_iff,
      implies_true, and_true, ← jsonText_eq_self_iff]
    simp only [Op.sessionIDs, mem_singleton] at hnamed
    rw [← hnamed]
    constructor
    · intro h
      have hnew := h.outputs _ (mem_append_right _ (mem_singleton_self _))
      exact ⟨h.sessionID, h.sessionID, hnew.operationID, hnew.kind⟩
    rintro ⟨hid, -, hoid, hkind⟩
    refine ⟨hid, hs.inputs, forall_mem_append.mpr ⟨hs.outputs, ?_⟩, hs.recovery⟩
    exact forall_mem_singleton.mpr ⟨hoid, hkind, rfl, rfl⟩
  | writeOutput hfound hmove =>
    have hiff := hmove.encoded_iff (hs.outputs _ (mem_of_find?_eq_some hfound))
    constructor
    · intro h
      exact ⟨h.sessionID, hiff.mp (h.outputs _ (mem_replaceFirst_new hfound _))⟩
    rintro ⟨hid, hport⟩
    exact ⟨hid, hs.inputs, forall_mem_written (hiff.mpr hport) hs.outputs, hs.recovery⟩
  | supersede heq =>
    subst heq
    refine hplain rfl hs.inputs (fun x hx => ?_) hs.recovery
    obtain ⟨r, hr, rfl⟩ := mem_map.mp hx
    have henc := hs.outputs r hr
    unfold supersedeRecord
    split_ifs
    · exact ⟨henc.operationID, henc.kind, henc.receipt, henc.owner⟩
    · exact henc

/-- A move neither makes nor removes an empty slice. -/
theorem SessionMove.noEmptySlice_iff (hmove : SessionMove limits op s s') :
    s'.NoEmptySlice ↔ s.NoEmptySlice := by
  unfold SessionRecord.NoEmptySlice
  cases hmove with
  | enqueueInput =>
    have hnew : ∀ attachments, attachmentRecords attachments ≠ some [] := by
      intro attachments
      unfold attachmentRecords
      split_ifs with h <;> simp [h]
    rw [forall_mem_append, forall_mem_singleton]
    exact and_iff_left (hnew _)
  | writeInput hfound hmove => exact forall_mem_replaceFirst hfound (by rw [hmove.identity.2.2])
  | @commit token through phase f hcommit =>
    have hf : ∀ r, (f r).attachments = r.attachments := by
      intro r
      rcases (Op.commit_cases hcommit r).1 with h | h <;> rw [h]
    have hcolumn : (applyThrough through f s.inputs).map (·.attachments) =
        s.inputs.map (·.attachments) := by
      induction s.inputs with
      | nil => rfl
      | cons r rest ih =>
        unfold applyThrough
        split_ifs <;> simp [hf, ih]
    have hforall : ∀ l : List InputRecord, (∀ r ∈ l, r.attachments ≠ some []) ↔
        ∀ a ∈ l.map (·.attachments), a ≠ some [] := fun l => by
      rw [List.forall_mem_map]
    rw [hforall, hforall, hcolumn]
  | takeOver | openBoundary | enqueueOutput | writeOutput | supersede => exact Iff.rfl

variable {d d' : Document}

/-- An accepted change of a document that is text leaves text exactly when the operation stores
text. -/
theorem Op.change_encoded_iff (hchange : op.change limits d = .ok d') (hd : d.Encoded) :
    d'.Encoded ↔ op.Portable := by
  obtain ⟨found, s, s', hfinds, hsession, rfl⟩ := Op.change_eq_ok hchange
  have hmove := Op.sessionMove hsession
  cases hfinds with
  | existing hmem hs =>
    have henc := hd s (mem_of_sessionAt hs)
    have hiff := hmove.encoded_iff hmem ⟨henc.inputs, henc.outputs, henc.recovery⟩
    have hfound := hmove.find?_sessions hs
    constructor
    · intro h
      exact (hiff.mp (h s' (mem_replaceFirst_new hfound s'))).2
    intro hport
    exact forall_mem_written (hiff.mpr ⟨henc.sessionID, hport⟩) hd
  | @created sessionID hcreates hmem hnone =>
    have hiff := hmove.encoded_iff hmem ⟨nofun, nofun, nofun⟩
    rw [setSession_append hnone hmove.sessionID]
    constructor
    · intro h
      exact (hiff.mp (h s' (mem_append_right _ (mem_singleton_self _)))).2
    intro hport
    refine forall_mem_append.mpr ⟨hd, forall_mem_singleton.mpr (hiff.mpr ⟨?_, hport⟩)⟩
    -- The id of a new session is one of the strings that an enqueue stores.
    rw [jsonText_eq_self_iff]
    refine hport sessionID ?_
    cases op <;> simp only [Op.creates, false_eq_true] at hcreates <;>
      simp only [Op.sessionIDs, mem_singleton] at hmem <;> simp [Op.strings, hmem]

/-- An accepted change neither makes nor removes an empty slice. -/
theorem Op.change_noEmptySlice_iff (hchange : op.change limits d = .ok d') :
    d'.NoEmptySlice ↔ d.NoEmptySlice := by
  obtain ⟨found, s, s', hfinds, hsession, rfl⟩ := Op.change_eq_ok hchange
  have hmove := Op.sessionMove hsession
  cases hfinds with
  | existing hmem hs =>
    have hfound := hmove.find?_sessions hs
    exact forall_mem_replaceFirst hfound hmove.noEmptySlice_iff
  | created _ _ hnone =>
    rw [setSession_append hnone hmove.sessionID]
    have hnew : s'.NoEmptySlice := hmove.noEmptySlice_iff.mpr nofun
    unfold Document.NoEmptySlice
    rw [forall_mem_append, forall_mem_singleton]
    exact and_iff_left hnew

/-! ## Changes that the trip undoes -/

/-- A lease that is taken ends later than the one it replaces. -/
theorem newLease_later {lease : LeaseRecord} {now : Time} {duration : Int} {owner : GoString}
    (hlease : lease.Valid limits) (hfree : lease.live now = false)
    (huntil : 0 < (now.add duration).unixNano) (hpos : 0 < duration)
    (hday : duration ≤ defaultLimits.maxLeaseDuration) :
    lease.untilUnix < (newLease owner now duration).untilUnix := by
  rcases hlease with rfl | ⟨⟨howner, -⟩, -⟩
  · exact huntil
  have hexpired : lease.untilUnix ≤ now.unixNano := by
    simpa [LeaseRecord.live, howner] using hfree
  -- A sum that wraps around is negative, and the request is refused.
  have hlater : now.unixNano < (now.add duration).unixNano := by
    have hday' : duration ≤ 86400000000000 := hday
    simp only [Time.unixNano, Time.add, Int.bmod_def] at huntil ⊢
    omega
  exact Int.lt_of_le_of_lt hexpired hlater

/-- No write of an input is undone by the trip. -/
theorem InputMove.reencode_ne {r r' : InputRecord} (h : InputMove limits s op r r')
    (hsound : op.Sound limits) (hday : limits.maxLeaseDuration ≤ defaultLimits.maxLeaseDuration)
    (hr : r.Valid limits) : r'.reencode ≠ r := by
  intro heq
  have hphase : r'.reencode.phase = r.phase := congrArg InputRecord.phase heq
  change r'.phase = r.phase at hphase
  have howner : jsonText r'.lease.owner = r.lease.owner := congrArg (·.lease.owner) heq
  cases h with
  | lease _ _ _ hfree =>
    have huntil := congrArg (·.lease.untilUnix) heq
    exact absurd huntil (Int.ne_of_gt (newLease_later hr.lease hfree hsound.1.2 hsound.2.1
      (Int.le_trans hsound.2.2 hday)))
  | accept _ hp => simp [hp] at hphase
  | replace _ _ _ hother => exact hother (congrArg InputRecord.payload heq).symm
  | release _ howned hnamed => exact hnamed (howned.symm.trans howner.symm)
  | deliver hdelivery hp =>
    obtain ⟨hf, -⟩ := Op.delivery_spec hdelivery
    rcases hf with rfl | rfl <;> simp [hp] at hphase
  | outcome _ _ _ hother => exact hother hphase.symm
  | retry hstuck => rcases hstuck with h | h <;> simp [h] at hphase

theorem OutputMove.reencode_ne {r r' : OutputRecord} (h : OutputMove s op r r')
    (hsound : op.Sound limits) (hday : limits.maxLeaseDuration ≤ defaultLimits.maxLeaseDuration)
    (hr : r.Valid limits) : r'.reencode ≠ r := by
  intro heq
  have hphase : r'.reencode.phase = r.phase := congrArg OutputRecord.phase heq
  change r'.phase = r.phase at hphase
  cases h with
  | lease _ hfree =>
    have huntil := congrArg (·.lease.untilUnix) heq
    exact absurd huntil (Int.ne_of_gt (newLease_later hr.lease hfree hsound.1.2 hsound.2.1
      (Int.le_trans hsound.2.2 hday)))
  | confirm hp => simp [hp] at hphase
  | finish hfinish hp =>
    cases op <;> simp only [Op.finish, some.injEq, Prod.mk.injEq, reduceCtorEq] at hfinish
      <;> obtain ⟨-, -, rfl⟩ := hfinish <;> simp [hp] at hphase
  | retry hstuck => rcases hstuck with h | h <;> simp [h] at hphase

/-- The only move that the trip can undo is a takeover. -/
theorem SessionMove.restores (hmove : SessionMove limits op s s') (hsound : op.Sound limits)
    (hday : limits.maxLeaseDuration ≤ defaultLimits.maxLeaseDuration) (hs : s.Valid limits)
    (heq : s'.reencode = s) :
    ∃ ctx sessionID token legacyBlockedOnly through,
      op = .beginInputRecovery ctx sessionID token legacyBlockedOnly ∧
        s.recovery = some ⟨jsonText token, through, .opened⟩ := by
  have hnext : s'.reencode.nextSequence = s.nextSequence := congrArg nextSequence heq
  change s'.nextSequence = s.nextSequence at hnext
  have hinputs : s'.inputs.map InputRecord.reencode = s.inputs := congrArg SessionRecord.inputs heq
  have houtputs : s'.outputs.map OutputRecord.reencode = s.outputs := congrArg outputs heq
  have hrecovery : s'.recovery.map InputRecoveryRecord.reencode = s.recovery :=
    congrArg recovery heq
  cases hmove with
  | enqueueInput | enqueueOutput =>
    simp only at hnext
    omega
  | writeInput hfound hmove =>
    exact absurd (eq_of_map_replaceFirst hfound hinputs)
      (hmove.reencode_ne hsound hday (hs.inputs _ (mem_of_find?_eq_some hfound)))
  | @takeOver ctx sessionID token legacyBlockedOnly through before heq' hopened =>
    exact ⟨ctx, sessionID, token, legacyBlockedOnly, through, heq', hrecovery.symm⟩
  | openBoundary _ hclosed =>
    simp [recoveryOpen, ← hrecovery, InputRecoveryRecord.reencode] at hclosed
  | commit hcommit hopened =>
    -- A commit leaves the boundary committed or attached, and it was open.
    rw [hopened] at hrecovery
    simp only [map_some, InputRecoveryRecord.reencode, some.injEq,
      InputRecoveryRecord.mk.injEq] at hrecovery
    obtain ⟨-, -, rfl⟩ := hrecovery
    cases op <;> simp [Op.commit] at hcommit
  | writeOutput hfound hmove =>
    exact absurd (eq_of_map_replaceFirst hfound houtputs)
      (hmove.reencode_ne hsound hday (hs.outputs _ (mem_of_find?_eq_some hfound)))
  | supersede _ hswept =>
    obtain ⟨r, hr, hsup⟩ := any_eq_true.mp hswept
    simp only [map_map] at houtputs
    have hsame := map_eq_self_iff.mp houtputs r hr
    have hphase := congrArg OutputRecord.phase hsame
    simp only [Function.comp, supersedeRecord, hsup, if_true, OutputRecord.reencode] at hphase
    simp [supersedable, ← hphase] at hsup

/-- The trip undoes an accepted change exactly when the change restores a token. -/
theorem Op.change_reencode_eq_iff (hchange : op.change limits d = .ok d')
    (hadmitted : op.admitted limits)
    (hday : limits.maxLeaseDuration ≤ defaultLimits.maxLeaseDuration) (hvalid : d.Valid limits)
    (hd : d.Encoded) : d'.reencode = d ↔ op.RestoresToken d ∧ d.NoEmptySlice := by
  have hsound := Op.sound_of_admitted hadmitted
  obtain ⟨found, s, s', hfinds, hsession, rfl⟩ := Op.change_eq_ok hchange
  have hmove := Op.sessionMove hsession
  constructor
  · intro heq
    have hsessions : (found.setSession s').sessions.map reencode = d.sessions :=
      congrArg Document.sessions heq
    refine ⟨?_, heq ▸ Document.noEmptySlice_reencode _⟩
    cases hfinds with
    | existing hmem hs =>
      have hfound := hmove.find?_sessions hs
      have hsame := eq_of_map_replaceFirst hfound hsessions
      obtain ⟨ctx, sessionID, token, legacyBlockedOnly, through, rfl, hrec⟩ :=
        hmove.restores hsound hday (hvalid.sessions s (mem_of_sessionAt hs)) hsame
      simp only [Op.sessionIDs, mem_singleton] at hmem
      rw [hmem] at hs
      exact ⟨ctx, sessionID, token, legacyBlockedOnly, s, through, rfl, hs, hrec⟩
    | created _ _ hnone =>
      -- There is one session more.
      have hlength := congrArg List.length hsessions
      rw [setSession_append hnone hmove.sessionID] at hlength
      simp at hlength
  · rintro ⟨⟨ctx, sessionID, token, legacyBlockedOnly, t, through, rfl, ht, hrec⟩, hne⟩
    have hkept : ∀ x ∈ d.sessions, x.reencode = x := fun x hx =>
      reencode_eq_self_iff.mpr ⟨hd x hx, hne x hx⟩
    cases hfinds with
    | existing hmem hs =>
      simp only [Op.sessionIDs, mem_singleton] at hmem
      rw [hmem] at hs
      obtain rfl : s = t := mem_unique hs ht
      have hfound : d.sessions.find? (·.sessionID = s'.sessionID) = some s := by
        rw [hmove.sessionID, hmem]
        exact hs
      have hback : s'.reencode = s := by
        have hself := hkept s (mem_of_sessionAt hs)
        rcases beginRecovery_eq_ok hsession with ⟨before, through', hopened, -, rfl⟩ |
          ⟨hclosed, -⟩
        · rw [hrec] at hopened
          cases hopened
          calc ({ s with recovery := some ⟨token, through, .opened⟩ } : SessionRecord).reencode
              = { s.reencode with recovery := some ⟨jsonText token, through, .opened⟩ } := rfl
            _ = s := by rw [hself, ← hrec]
        · simp [recoveryOpen, hrec] at hclosed
      have hsessions := map_replaceFirst_eq_self hfound hback hkept
      simp only [Document.reencode, Document.setSession, hsessions]
    | created hcreates => simp [Op.creates] at hcreates

/-! ## Atomicity -/

/-- The document that an operation asks for: the changed one, or the one it found if it changes
nothing. -/
def Op.result (limits : Limits) (op : Op) (d : Document) : Document :=
  match (op.call limits).early, op.change limits d with
  | none, .ok d' => d'
  | _, _ => d

/-- All or nothing: an operation on a file that holds `d`. -/
structure Op.Atomic (limits : Limits) (op : Op) (faults : Faults) (disk : Disk) (d : Document) :
    Prop where
  /-- An operation that returns an error leaves a file that loads with the same document. -/
  failed : op.error limits faults disk ≠ none → read limits (op.step limits faults disk) = .ok d
  /-- One that returns none leaves a file that loads with the document it asked for. -/
  done : op.error limits faults disk = none →
    read limits (op.step limits faults disk) = .ok (op.result limits d)

/-- The guards that an operation passes before it replaces the file. -/
structure Op.Replaces (limits : Limits) (op : Op) (faults : Faults) (d : Document) : Prop where
  /-- Its argument checks. -/
  admitted : op.admitted limits
  /-- The steps of the file system up to the rename. -/
  working : faults.lock = false ∧ faults.read = false ∧ faults.write = false
  /-- The guard of its change, the validation and the size of the file. -/
  accepted : ∃ d', op.change limits d = .ok d' ∧ d'.Valid limits ∧
    d'.encodedSize ≤ limits.maxFileBytes

/-- What an operation asks for when its change is accepted. -/
theorem Op.result_of_change (hadmitted : op.admitted limits)
    (hchange : op.change limits d = .ok d') : op.result limits d = d' := by
  unfold Op.admitted at hadmitted
  simp only [Op.result, hadmitted, hchange]

/-- An operation that replaces nothing leaves the file, and it asked for no other document unless
it returns an error. -/
theorem Op.kept {faults : Faults} {disk : Disk} (hread : read limits disk = .ok d)
    (h : ¬ op.Replaces limits faults d) :
    op.step limits faults disk = disk ∧
      (op.error limits faults disk = none → op.result limits d = d) := by
  unfold Op.step Op.error
  rcases (op.call limits).run_cases limits faults disk with ⟨result, hearly, heq⟩ | ⟨-, e, heq⟩ |
    ⟨hearly, d0, e, hread0, hchange, heq⟩ | ⟨hearly, hlock, hfault, d0, d', hread0, hchange, heq⟩
  · rw [heq]
    exact ⟨rfl, fun _ => by simp only [Op.result, hearly]⟩
  · rw [heq]
    exact ⟨rfl, fun hnone => by simp at hnone⟩
  · obtain rfl : d0 = d := by simpa [hread0] using hread
    have hchange' : op.change limits d0 = .error e := hchange
    rw [heq]
    exact ⟨rfl, fun _ => by simp only [Op.result, hearly, hchange']⟩
  obtain rfl : d0 = d := by simpa [hread0] using hread
  -- The change is accepted, so a later guard stops the operation, with an error.
  have hstops : ¬ (d'.Valid limits ∧ (marshal d').size ≤ limits.maxFileBytes ∧
      faults.write = false) := fun ⟨hvalid, hsize, hwrite⟩ =>
    h ⟨hearly, ⟨hlock, hfault, hwrite⟩, d', hchange, hvalid, hsize⟩
  obtain ⟨e, he⟩ := persist_kept disk hstops
  rw [heq, he]
  exact ⟨rfl, fun hnone => by simp at hnone⟩

/-- An operation that replaces the file leaves the encoding of its change, and returns no error
exactly when it can read it back and the trip through JSON keeps it. -/
theorem Op.replaced {faults : Faults} {disk : Disk} (hread : read limits disk = .ok d)
    (hadmitted : op.admitted limits)
    (hworking : faults.lock = false ∧ faults.read = false ∧ faults.write = false)
    (hsync : faults.sync = false) (hchange : op.change limits d = .ok d')
    (hvalid : d'.Valid limits) (hsize : d'.encodedSize ≤ limits.maxFileBytes) :
    op.step limits faults disk = .stored (marshal d') ∧
      (op.error limits faults disk = none ↔ faults.reread = false ∧ d'.reencode = d') := by
  obtain ⟨hlock, hfault, hwrite⟩ := hworking
  obtain ⟨hdisk, hnone⟩ := persist_replaced disk hvalid hsize hwrite
  unfold Op.step Op.error
  rw [Call.run_accepted hadmitted hlock hfault hread hchange]
  refine ⟨hdisk, hnone.trans ?_⟩
  rw [hsync]
  exact and_iff_right rfl

/-- An operation on a journal that loads is all or nothing exactly when, if it replaces the file,
no input that was loaded has an empty attachment slice and the strings it stores are valid UTF-8
and can be read back, or it is a takeover that the trip through JSON undoes. -/
theorem atomic_iff (j : Journal) {disk : Disk} {d : Document} (hread : read j.limits disk = .ok d)
    (op : Op) {faults : Faults} (hsync : faults.sync = false) :
    op.Atomic j.limits faults disk d ↔ (op.Replaces j.limits faults d →
      d.NoEmptySlice ∧ (faults.reread = false ∧ op.Portable ∨ op.RestoresToken d)) := by
  by_cases hrep : op.Replaces j.limits faults d
  swap
  · obtain ⟨hstep, hresult⟩ := Op.kept hread hrep
    refine iff_of_true ⟨fun _ => ?_, fun hnone => ?_⟩ fun h => absurd h hrep
    · rw [hstep, hread]
    · rw [hstep, hread, hresult hnone]
  obtain ⟨hadmitted, hworking, d', hchange, hvalid, hsize⟩ := hrep
  obtain ⟨hstep, hnone⟩ := Op.replaced hread hadmitted hworking hsync hchange hvalid hsize
  have hloads := @read_marshal d' j.limits hvalid.version hsize
  have hresult := Op.result_of_change hadmitted hchange
  have hd := encoded_of_read hread
  have hkeeps : d'.reencode = d' ↔ op.Portable ∧ d.NoEmptySlice := by
    rw [Document.reencode_eq_self_iff, Op.change_encoded_iff hchange hd,
      Op.change_noEmptySlice_iff hchange]
  have hundoes := Op.change_reencode_eq_iff hchange hadmitted j.leases_bounded
    (valid_of_read hread) hd
  rw [imp_iff_right ⟨hadmitted, hworking, d', hchange, hvalid, hsize⟩]
  by_cases hok : faults.reread = false ∧ d'.reencode = d'
  · -- The operation succeeds, and the file holds what it asked for.
    obtain ⟨hport, hne⟩ := hkeeps.mp hok.2
    refine iff_of_true ⟨fun hsome => absurd (hnone.mpr hok) hsome, fun _ => ?_⟩
      ⟨hne, .inl ⟨hok.1, hport⟩⟩
    rw [hstep, hresult, hloads]
    exact ⟨hok.2.symm, by rwa [hok.2]⟩
  -- The operation fails after the rename, so the file has to hold what it held before.
  have hsome : op.error j.limits faults disk ≠ none := fun h => hok (hnone.mp h)
  have hatomic : op.Atomic j.limits faults disk d ↔ d'.reencode = d := by
    constructor
    · intro h
      have hload := h.failed hsome
      rw [hstep, hloads] at hload
      exact hload.1.symm
    intro h
    refine ⟨fun _ => ?_, fun h => absurd h hsome⟩
    rw [hstep, hloads]
    exact ⟨h.symm, by rw [h]; exact valid_of_read hread⟩
  rw [hatomic, hundoes, and_comm]
  refine and_congr_right fun hne => ⟨.inr, ?_⟩
  rintro (⟨hreread, hport⟩ | hrestores)
  · exact absurd ⟨hreread, hkeeps.mpr ⟨hport, hne⟩⟩ hok
  · exact hrestores

/-- Enqueueing an input under a plain id is all or nothing. -/
theorem atomic_plain_id :
    (Op.enqueueInput {} [0x73] [0x6D] [] []).Atomic defaultLimits {} .missing emptyDocument :=
  (atomic_iff ⟨defaultLimits, rfl⟩ rfl (.enqueueInput {} [0x73] [0x6D] [] []) rfl).mpr
    fun _ => ⟨nofun, .inl ⟨rfl, by unfold Op.Portable; decide⟩⟩

/-- Enqueueing an input under an id that is no UTF-8 returns an error although the file then holds
the input. A second such id makes a file that does not load any more. -/
theorem invalid_id_replaces :
    ∃ disk d, (Op.enqueueInput {} [0x73] [0xFF] [] []).error defaultLimits {} .missing ≠ none ∧
      (Op.enqueueInput {} [0x73] [0xFF] [] []).step defaultLimits {} .missing = disk ∧
      read defaultLimits disk = .ok d ∧ d ≠ emptyDocument ∧
      (Op.enqueueInput {} [0x73] [0xFE] [] []).error defaultLimits {} disk ≠ none ∧
      ∃ e, read defaultLimits
        ((Op.enqueueInput {} [0x73] [0xFE] [] []).step defaultLimits {} disk) = .error e :=
  ⟨_, _, nofun, rfl, rfl, nofun, nofun, _, rfl⟩

end Bria.MessageJournal
