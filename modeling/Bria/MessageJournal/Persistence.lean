import Bria.MessageJournal.Validate

/-!
# The journal file

What `json.Marshal` and the decoder do to a document, and `mutate`: read, change, validate, encode,
replace the file, read again and compare. The bytes of a file are modelled by what the decoder
makes of them. A string of a file is valid UTF-8, as JSON text is, and `reencode` is the trip of a
document through the file: its strings become their JSON text, and an empty attachment slice,
which `omitempty` drops, comes back nil. `encodedSize` counts the bytes that `json.Marshal` writes.

An operation of the journal is a `Call`: an early return, or a change that `mutate` runs. Failures
of the file system are an argument (`Faults`), one for each step of `mutate` that can fail.
-/

namespace Bria.MessageJournal

open Go

/-! ## The trip through JSON -/

/-- A lease as read from the file. -/
def LeaseRecord.reencode (lease : LeaseRecord) : LeaseRecord :=
  { lease with owner := jsonText lease.owner }

/-- An attachment as read from the file. -/
def AttachmentRecord.reencode (a : AttachmentRecord) : AttachmentRecord :=
  { a with reference := jsonText a.reference, sha256 := jsonText a.sha256 }

/-- Attachments as they come back from the file: `omitempty` drops an empty slice. -/
def reencodeAttachments : Option (List AttachmentRecord) → Option (List AttachmentRecord)
  | none => none
  | some [] => none
  | some (a :: rest) => some ((a :: rest).map AttachmentRecord.reencode)

/-- An input as read from the file. -/
def InputRecord.reencode (r : InputRecord) : InputRecord :=
  { r with
    messageID := jsonText r.messageID
    attachments := reencodeAttachments r.attachments
    lease := r.lease.reencode }

/-- An output as read from the file. -/
def OutputRecord.reencode (r : OutputRecord) : OutputRecord :=
  { r with
    operationID := jsonText r.operationID
    kind := jsonText r.kind
    receipt := jsonText r.receipt
    lease := r.lease.reencode }

/-- A recovery record as read from the file. -/
def InputRecoveryRecord.reencode (r : InputRecoveryRecord) : InputRecoveryRecord :=
  { r with token := jsonText r.token }

/-- A session as read from the file. -/
def SessionRecord.reencode (s : SessionRecord) : SessionRecord where
  sessionID := jsonText s.sessionID
  nextSequence := s.nextSequence
  inputs := s.inputs.map InputRecord.reencode
  outputs := s.outputs.map OutputRecord.reencode
  recovery := s.recovery.map InputRecoveryRecord.reencode

/-- A document as read from the file. -/
def Document.reencode (d : Document) : Document :=
  ⟨d.version, d.sessions.map SessionRecord.reencode⟩

/-- The attachments of a file: their strings are valid UTF-8. -/
def AttachmentRecord.Encoded (a : AttachmentRecord) : Prop := a.reencode = a

/-- The strings of an input of a file are valid UTF-8. -/
structure InputRecord.Encoded (r : InputRecord) : Prop where
  messageID : jsonText r.messageID = r.messageID
  attachments : ∀ a ∈ r.attachments.getD [], a.Encoded
  owner : jsonText r.lease.owner = r.lease.owner

/-- The strings of an output of a file are valid UTF-8. -/
structure OutputRecord.Encoded (r : OutputRecord) : Prop where
  operationID : jsonText r.operationID = r.operationID
  kind : jsonText r.kind = r.kind
  receipt : jsonText r.receipt = r.receipt
  owner : jsonText r.lease.owner = r.lease.owner

/-- The strings of a session of a file are valid UTF-8. -/
structure SessionRecord.Encoded (s : SessionRecord) : Prop where
  sessionID : jsonText s.sessionID = s.sessionID
  inputs : ∀ r ∈ s.inputs, r.Encoded
  outputs : ∀ r ∈ s.outputs, r.Encoded
  recovery : ∀ r, s.recovery = some r → jsonText r.token = r.token

/-- The strings of a document of a file are valid UTF-8. -/
def Document.Encoded (d : Document) : Prop := ∀ s ∈ d.sessions, s.Encoded

theorem InputRecord.encoded_reencode (r : InputRecord) : r.reencode.Encoded := by
  refine ⟨jsonText_jsonText _, ?_, jsonText_jsonText _⟩
  intro a ha
  rcases hatt : r.attachments with _ | _ | ⟨b, rest⟩
  · simp [InputRecord.reencode, hatt, reencodeAttachments] at ha
  · simp [InputRecord.reencode, hatt, reencodeAttachments] at ha
  simp only [InputRecord.reencode, hatt, reencodeAttachments, getD_some] at ha
  obtain ⟨c, -, rfl⟩ := mem_map.mp ha
  simp [AttachmentRecord.Encoded, AttachmentRecord.reencode, jsonText_jsonText]

theorem Document.encoded_reencode (d : Document) : d.reencode.Encoded := by
  intro s hs
  obtain ⟨s, -, rfl⟩ := mem_map.mp hs
  refine ⟨jsonText_jsonText _, ?_, ?_, ?_⟩
  · intro r hr
    obtain ⟨r, -, rfl⟩ := mem_map.mp hr
    exact r.encoded_reencode
  · intro r hr
    obtain ⟨r, -, rfl⟩ := mem_map.mp hr
    exact ⟨jsonText_jsonText _, jsonText_jsonText _, jsonText_jsonText _, jsonText_jsonText _⟩
  intro r hr
  obtain ⟨r, -, rfl⟩ := map_eq_some_iff.mp hr
  exact jsonText_jsonText _

/-! ## The size of a file -/

/-- The bytes of a lease, whose fields are omitted when they are zero. -/
def LeaseRecord.encodedSize (lease : LeaseRecord) : Nat :=
  objectLength ((if lease.owner = [] then [] else [(5, quotedLength lease.owner)]) ++
    if lease.untilUnix = 0 then [] else [(15, numberLength lease.untilUnix)])

/-- The bytes of an attachment. -/
def AttachmentRecord.encodedSize (a : AttachmentRecord) : Nat :=
  objectLength [(9, quotedLength a.reference), (4, numberLength a.size), (6, quotedLength a.sha256)]

/-- The bytes of an input phase with its quotes. -/
def InputPhase.encodedSize : InputPhase → Nat
  | .pending => 9
  | .accepted => 10
  | .completed => 11
  | .failed => 8
  | .terminalFailed => 17
  | .unknown => 9
  | .skipped => 9

/-- The bytes of an output phase with its quotes. -/
def OutputPhase.encodedSize : OutputPhase → Nat
  | .pending => 9
  | .confirmed => 11
  | .failed => 8
  | .unknown => 9
  | .superseded => 12

/-- The bytes of a recovery phase with its quotes. -/
def InputRecoveryPhase.encodedSize : InputRecoveryPhase → Nat
  | .opened => 6
  | .committed => 11
  | .attached => 10

/-- The bytes of an input. -/
def InputRecord.encodedSize (r : InputRecord) : Nat :=
  let attachments := r.attachments.getD []
  objectLength ([(10, quotedLength r.messageID), (8, numberLength r.sequence),
      (7, base64Length r.payload)] ++
    (if attachments = [] then []
      else [(11, arrayLength (attachments.map AttachmentRecord.encodedSize))]) ++
    [(5, r.phase.encodedSize), (5, r.lease.encodedSize)])

/-- The bytes of an output. -/
def OutputRecord.encodedSize (r : OutputRecord) : Nat :=
  objectLength ([(12, quotedLength r.operationID), (8, numberLength r.sequence),
      (4, quotedLength r.kind), (7, base64Length r.payload), (5, r.phase.encodedSize)] ++
    (if r.receipt = [] then [] else [(7, quotedLength r.receipt)]) ++
    [(5, r.lease.encodedSize)])

/-- The bytes of a session. -/
def SessionRecord.encodedSize (s : SessionRecord) : Nat :=
  objectLength ([(10, quotedLength s.sessionID), (13, numberLength s.nextSequence),
      (6, arrayLength (s.inputs.map InputRecord.encodedSize)),
      (7, arrayLength (s.outputs.map OutputRecord.encodedSize))] ++
    match s.recovery with
    | none => []
    | some r => [(14, objectLength [(5, quotedLength r.token),
        (16, numberLength r.throughSequence), (5, r.phase.encodedSize)])])

/-- `len(data)` for the data that `json.Marshal` returns. -/
def Document.encodedSize (d : Document) : Nat :=
  objectLength [(7, numberLength d.version),
    (8, arrayLength (d.sessions.map SessionRecord.encodedSize))]

/-! ## Reading -/

/-- A regular file that decodes to one document. -/
structure File where
  /-- What the decoder makes of the bytes. -/
  document : Document
  /-- How many bytes there are. -/
  size : Nat
  /-- JSON text is UTF-8. -/
  encoded : document.Encoded

/-- What is at the journal's path. -/
inductive Disk where
  /-- No file. -/
  | missing
  /-- Something that is no regular file, or does not decode to one document with its collections
  present and its phases known. -/
  | unreadable
  /-- A file that decodes. -/
  | stored (file : File)

/-- `json.Marshal`. -/
def marshal (d : Document) : File := ⟨d.reencode, d.encodedSize, d.encoded_reencode⟩

/-- The checks of `read` on a document of an older version. -/
def checkLegacy (loaded : Document) : Except Err Unit :=
  if loaded.version = 1 ∨ loaded.version = 2 then
    loaded.sessions.forM fun session => do
      refuse session.recovery.isSome
        (.wrap "legacy journal contains input recovery state" (err .invalidFormat))
      refuse (session.inputs.any (·.phase = .skipped))
        (.wrap "legacy journal contains skipped input" (err .invalidFormat))
  else .ok ()

/-- The document of an older version, as the current one. -/
def upgrade (loaded : Document) : Document :=
  if loaded.version = 1 ∨ loaded.version = 2 then { loaded with version := formatVersion }
  else loaded

/-- `read`, without the failures of the file system. -/
def read (limits : Limits) : Disk → Except Err Document
  | .missing => .ok emptyDocument
  | .unreadable => .error (err .invalidFormat)
  | .stored file => do
    refuse (limits.maxFileBytes < file.size)
      (.wrap "journal is not a bounded regular file" (err .invalidFormat))
    checkLegacy file.document
    (validateDocument (upgrade file.document) limits).mapError fun _ => err .invalidFormat
    .ok (upgrade file.document)

/-! ## Writing -/

/-- The steps of one operation that the file system fails. -/
structure Faults where
  /-- Opening or taking the file lock. -/
  lock : Bool := false
  /-- The first read. -/
  read : Bool := false
  /-- A step of `atomicWrite` up to the rename. -/
  write : Bool := false
  /-- Opening or syncing the directory after the rename. -/
  sync : Bool := false
  /-- The read after the replacement. -/
  reread : Bool := false

/-- `read`, with a failure of the file system. -/
def readFile (limits : Limits) (fault : Bool) (disk : Disk) : Except Err Document := do
  refuse fault (.message "read message journal")
  read limits disk

/-- `atomicWrite`: the error it returns, and the file it leaves. -/
def atomicWrite (faults : Faults) (file : File) (disk : Disk) : Except Err Unit × Disk :=
  if faults.write then (.error (.message "write temporary file"), disk)
  else if faults.sync then (.error (.message "sync directory"), .stored file)
  else (.ok (), .stored file)

/-- The end of `mutate`, from an accepted change: the error it returns, and the file it leaves. -/
def persist (limits : Limits) (faults : Faults) (loaded : Document) (disk : Disk) :
    Option Err × Disk :=
  match validateDocument loaded limits with
  | .error e => (some (.wrap "validate message journal mutation" e), disk)
  | .ok () =>
    if limits.maxFileBytes < (marshal loaded).size then (some (err .journalFull), disk)
    else
      match atomicWrite faults (marshal loaded) disk with
      | (.error e, disk) => (some (.wrap "persist message journal" e), disk)
      | (.ok (), disk) =>
        match readFile limits faults.reread disk with
        | .error e => (some (.wrap "reread message journal" e), disk)
        | .ok persisted =>
          if persisted ≠ loaded then
            (some (.message "reread message journal: persisted value mismatch"), disk)
          else (none, disk)

/-- A method of the journal. -/
structure Call (α : Type) where
  /-- A return before the journal is touched. -/
  early : Option (α × Option Err)
  /-- The result variable before the change runs. -/
  zero : α
  /-- The change given to `mutate`: the result variable and the document it leaves. -/
  change : Document → α × Except Err Document

/-- A method that starts with checks and returns the zero value when one fails. -/
def Call.checked {α : Type} (check : Except Err Unit) (zero : α)
    (change : Document → α × Except Err Document) : Call α :=
  ⟨(errorOf check).map fun e => (zero, some e), zero, change⟩

/-- `mutate`: the result variable, the error and the file. -/
def mutate {α : Type} (limits : Limits) (faults : Faults) (zero : α)
    (change : Document → α × Except Err Document) (disk : Disk) : (α × Option Err) × Disk :=
  if faults.lock then ((zero, some (.message "acquire message journal lock")), disk)
  else
    match readFile limits faults.read disk with
    | .error e => ((zero, some e), disk)
    | .ok loaded =>
      match change loaded with
      | (result, .error e) => ((result, some e), disk)
      | (result, .ok loaded) =>
        let (e, disk) := persist limits faults loaded disk
        ((result, e), disk)

/-- The error that a method returns: `errNoMutation` becomes nil. -/
def settleError : Option Err → Option Err
  | none => none
  | some e => if e.is .noMutation then none else some e

/-- A method's result, its error and the file it leaves. -/
def Call.run {α : Type} (call : Call α) (limits : Limits) (faults : Faults) (disk : Disk) :
    (α × Option Err) × Disk :=
  match call.early with
  | some result => (result, disk)
  | none =>
    let ((result, e), disk) := mutate limits faults call.zero call.change disk
    ((result, settleError e), disk)

/-! ## What a call does to the file -/

variable {d d' : Document} {α : Type} {call : Call α}

/-- A document of the current version is the one that is read. -/
theorem upgrade_of_version (h : d.version = formatVersion) : upgrade d = d := by
  simp [upgrade, h, formatVersion]

variable {limits : Limits} {disk : Disk}

/-- A read succeeds only with a valid document. -/
theorem valid_of_read (h : read limits disk = .ok d) : d.Valid limits := by
  cases disk with
  | missing =>
    simp only [read, ok.injEq] at h
    subst h
    exact ⟨rfl, Nat.zero_le _, List.nodup_nil, by simp [emptyDocument], by simp [emptyDocument],
      by simp [emptyDocument], by simp [emptyDocument]⟩
  | unreadable => simp [read] at h
  | stored file =>
    simp only [read, check_eq_ok, ok.injEq] at h
    obtain ⟨-, -, hvalid, rfl⟩ := h
    rw [← validateDocument_ok_iff (u := ())]
    cases hv : validateDocument (upgrade file.document) limits with
    | ok u => rfl
    | error e => simp [hv, Except.mapError] at hvalid

/-- What a read of a file that `json.Marshal` wrote returns. -/
theorem read_marshal (hd : d.version = formatVersion)
    (hsize : (marshal d).size ≤ limits.maxFileBytes) {d' : Document} :
    read limits (.stored (marshal d)) = .ok d' ↔ d' = d.reencode ∧ d.reencode.Valid limits := by
  have hver : d.reencode.version = formatVersion := hd
  have hmap : ((validateDocument d.reencode limits).mapError fun _ => err .invalidFormat) =
      (.ok () : Except Err Unit) ↔ d.reencode.Valid limits := by
    rw [← validateDocument_ok_iff (u := ())]
    cases validateDocument d.reencode limits <;> simp [Except.mapError]
  have hlegacy : checkLegacy d.reencode = .ok () := by simp [checkLegacy, hver, formatVersion]
  simp only [read, check_eq_ok, refuse_eq_ok, decide_eq_false_iff_not, Nat.not_lt]
  change _ ∧ checkLegacy d.reencode = _ ∧ _ ∧ Except.ok (upgrade d.reencode) = _ ↔ _
  rw [show (marshal d).document = d.reencode from rfl, upgrade_of_version hver, hmap]
  simp only [hsize, hlegacy, true_and, ok.injEq]
  exact ⟨fun h => ⟨h.2.symm, h.1⟩, fun h => ⟨h.2, h.1.symm⟩⟩

/-- A read fails with no sentinel but `ErrInvalidFormat`. -/
theorem avoids_readFile (target : Sentinel) (htarget : target ≠ .invalidFormat) (limits : Limits)
    (fault : Bool) (disk : Disk) : Avoids target (readFile limits fault disk) := by
  have hformat : (err .invalidFormat).is target = false := by
    simpa [err, GoError.is] using htarget.symm
  refine .check rfl <| ?_
  cases disk with
  | missing => exact .ok _
  | unreadable => exact .bind (.refuse true hformat) fun _ => .ok emptyDocument
  | stored file =>
    refine .bind (.refuse _ hformat) fun _ => .bind ?_ fun _ => .bind (.mapError_const hformat)
      fun _ => .ok _
    unfold checkLegacy
    split_ifs
    · refine .forM (fun session => .bind (.refuse _ ?_) fun _ => .refuse _ ?_) _ <;> exact hformat
    · exact .ok ()

/-- The end of `mutate` fails with no sentinel but `ErrInvalidFormat` and `ErrFull`. -/
theorem avoids_persist (target : Sentinel) (hformat : target ≠ .invalidFormat)
    (hfull : target ≠ .journalFull) {limits : Limits} {faults : Faults} {loaded : Document}
    {disk : Disk} {e : Err} (h : (persist limits faults loaded disk).1 = some e) :
    e.is target = false := by
  unfold persist at h
  split at h
  · next e' hvalidate =>
    obtain rfl := some.inj h
    exact avoids_validateDocument _ _ e' hvalidate
  split_ifs at h
  · obtain rfl := some.inj h
    simpa [err, GoError.is] using hfull.symm
  unfold atomicWrite at h
  split_ifs at h <;> dsimp only at h
  · obtain rfl := some.inj h
    rfl
  · obtain rfl := some.inj h
    rfl
  split at h
  · next e' hread =>
    obtain rfl := some.inj h
    exact avoids_readFile target hformat _ _ _ e' hread
  split_ifs at h
  obtain rfl := some.inj h
  rfl

/-- So it does not fail with `errNoMutation`. -/
theorem settleError_persist (limits : Limits) (faults : Faults) (loaded : Document)
    (disk : Disk) : settleError (persist limits faults loaded disk).1 =
      (persist limits faults loaded disk).1 := by
  cases hpersist : (persist limits faults loaded disk).1 with
  | none => rfl
  | some e => simp [settleError, avoids_persist .noMutation nofun nofun hpersist]

variable {faults : Faults}

/-- The end of `mutate` leaves the file, with an error, if the document is not valid or too large
or the write fails. -/
theorem persist_kept (disk : Disk)
    (h : ¬ (d.Valid limits ∧ (marshal d).size ≤ limits.maxFileBytes ∧ faults.write = false)) :
    ∃ e, persist limits faults d disk = (some e, disk) := by
  rcases hv : validateDocument d limits with e | u
  · exact ⟨.wrap "validate message journal mutation" e, by simp only [persist, hv]⟩
  by_cases hsize : limits.maxFileBytes < (marshal d).size
  · exact ⟨err .journalFull, by simp only [persist, hv, hsize, if_true]⟩
  cases hw : faults.write with
  | true =>
    exact ⟨.wrap "persist message journal" (.message "write temporary file"),
      by simp only [persist, hv, hsize, if_false, atomicWrite, hw, if_true]⟩
  | false => exact absurd ⟨validateDocument_ok_iff.mp hv, Nat.not_lt.mp hsize, hw⟩ h

/-- Otherwise it replaces the file by the encoding of the document. It then returns no error
exactly when nothing fails after the replacement and the trip through JSON keeps the document. -/
theorem persist_replaced (disk : Disk) (hvalid : d.Valid limits)
    (hsize : (marshal d).size ≤ limits.maxFileBytes) (hwrite : faults.write = false) :
    (persist limits faults d disk).2 = .stored (marshal d) ∧
      ((persist limits faults d disk).1 = none ↔
        faults.sync = false ∧ faults.reread = false ∧ d.reencode = d) := by
  have hv : validateDocument d limits = .ok () := validateDocument_ok_iff.mpr hvalid
  have hfits : ¬ limits.maxFileBytes < (marshal d).size := Nat.not_lt.mpr hsize
  cases hs : faults.sync with
  | true => simp [persist, hv, hfits, atomicWrite, hwrite, hs]
  | false =>
    simp only [persist, hv, hfits, if_false, atomicWrite, hwrite, hs, false_eq_true]
    cases hr : faults.reread with
    | true => simp [readFile, refuse, bind, Except.bind]
    | false =>
      have hread : ∀ d', read limits (.stored (marshal d)) = .ok d' ↔ _ := fun d' =>
        read_marshal hvalid.version hsize
      have hrf : readFile limits false (.stored (marshal d)) =
          read limits (.stored (marshal d)) := rfl
      rw [hrf]
      rcases hrd : read limits (.stored (marshal d)) with e | d'
      · -- A document that the trip keeps would have been read.
        have hne : ¬ d.reencode = d := fun h => by
          simpa [hrd] using (hread d).mpr ⟨h.symm, by rwa [h]⟩
        simp [hne]
      obtain ⟨rfl, -⟩ := (hread d').mp hrd
      by_cases h : d.reencode = d <;> simp [h]

/-- The end of a method, after its change: an error, or `persist`. -/
def concluded {α : Type} (limits : Limits) (faults : Faults) (disk : Disk) :
    α × Except Err Document → (α × Option Err) × Disk
  | (result, .error e) => ((result, settleError (some e)), disk)
  | (result, .ok d') =>
    ((result, (persist limits faults d' disk).1), (persist limits faults d' disk).2)

theorem Call.run_read (hearly : call.early = none) (hlock : faults.lock = false)
    (hread : readFile limits faults.read disk = .ok d) :
    call.run limits faults disk = concluded limits faults disk (call.change d) := by
  rcases hc : call.change d with ⟨result, e | d'⟩ <;>
    simp [Call.run, hearly, mutate, hlock, hread, hc, concluded, settleError_persist]

/-- A call whose change runs and is accepted ends with `persist`. -/
theorem Call.run_accepted (hearly : call.early = none) (hlock : faults.lock = false)
    (hfault : faults.read = false) (hread : read limits disk = .ok d)
    (hchange : (call.change d).2 = .ok d') :
    call.run limits faults disk =
      (((call.change d).1, (persist limits faults d' disk).1),
        (persist limits faults d' disk).2) := by
  have hrf : readFile limits faults.read disk = .ok d := by rw [hfault]; exact hread
  rw [Call.run_read hearly hlock hrf]
  rcases hc : call.change d with ⟨result, e | d''⟩
  · simp [hc] at hchange
  obtain rfl : d'' = d' := by simpa [hc] using hchange
  rfl

/-- How a call ends: it returns early, or fails before its change is accepted, or is accepted. -/
theorem Call.run_cases (call : Call α) (limits : Limits) (faults : Faults) (disk : Disk) :
    (∃ result, call.early = some result ∧ call.run limits faults disk = (result, disk)) ∨
      (call.early = none ∧ ∃ e, call.run limits faults disk = ((call.zero, some e), disk)) ∨
      (call.early = none ∧ ∃ d e, read limits disk = .ok d ∧ (call.change d).2 = .error e ∧
        call.run limits faults disk = (((call.change d).1, settleError (some e)), disk)) ∨
      (call.early = none ∧ faults.lock = false ∧ faults.read = false ∧
        ∃ d d', read limits disk = .ok d ∧ (call.change d).2 = .ok d' ∧
          call.run limits faults disk = (((call.change d).1, (persist limits faults d' disk).1),
            (persist limits faults d' disk).2)) := by
  rcases hearly : call.early with _ | result
  · right
    cases hlock : faults.lock with
    | true =>
      exact .inl ⟨rfl, .message "acquire message journal lock",
        by simp [Call.run, hearly, mutate, hlock, settleError, GoError.is]⟩
    | false =>
      rcases hrf : readFile limits faults.read disk with e | d
      · have he := avoids_readFile .noMutation nofun _ _ _ e hrf
        exact .inl ⟨rfl, e, by simp [Call.run, hearly, mutate, hlock, hrf, settleError, he]⟩
      right
      simp only [readFile, check_eq_ok, refuse_eq_ok] at hrf
      have hrf' : readFile limits faults.read disk = .ok d := by rw [hrf.1]; exact hrf.2
      rcases hc : call.change d with ⟨result, e | d'⟩
      · exact .inl ⟨rfl, d, e, hrf.2, by rw [hc],
          by simp [Call.run, hearly, mutate, hlock, hrf', hc]⟩
      have hc' : (call.change d).2 = .ok d' := by rw [hc]
      exact .inr ⟨rfl, rfl, hrf.1, d, d', hrf.2, hc',
        Call.run_accepted hearly hlock hrf.1 hrf.2 hc'⟩
  · exact .inl ⟨result, rfl, by simp [Call.run, hearly]⟩

/-- A call that returns no error returned early, had nothing to change, or wrote the document that
is read from now on. -/
theorem Call.run_nil (h : (call.run limits faults disk).1.2 = none) :
    (call.early = some ((call.run limits faults disk).1.1, none) ∧
        (call.run limits faults disk).2 = disk) ∨
      call.early = none ∧ ∃ d, read limits disk = .ok d ∧
        (call.run limits faults disk).1.1 = (call.change d).1 ∧
        ((∃ e, (call.change d).2 = .error e ∧ e.is .noMutation ∧
            (call.run limits faults disk).2 = disk) ∨
          ∃ d', (call.change d).2 = .ok d' ∧
            (call.run limits faults disk).2 = .stored (marshal d') ∧
            read limits (call.run limits faults disk).2 = .ok d') := by
  rcases call.run_cases limits faults disk with ⟨⟨result, e⟩, hearly, heq⟩ | ⟨-, e, heq⟩ |
    ⟨hearly, d, e, hread, hchange, heq⟩ | ⟨hearly, -, -, d, d', hread, hchange, heq⟩ <;>
    rw [heq] at h ⊢
  · obtain rfl : e = none := h
    exact .inl ⟨hearly, rfl⟩
  · simp at h
  · have hnoop : e.is .noMutation := by
      cases hc : e.is .noMutation
      · simp [settleError, hc] at h
      · rfl
    exact .inr ⟨hearly, d, hread, rfl, .inl ⟨e, hchange, hnoop, rfl⟩⟩
  refine .inr ⟨hearly, d, hread, rfl, .inr ⟨d', hchange, ?_⟩⟩
  by_cases hfits : d'.Valid limits ∧ (marshal d').size ≤ limits.maxFileBytes ∧ faults.write = false
  · obtain ⟨hvalid, hsize, hwrite⟩ := hfits
    obtain ⟨hdisk, hnil⟩ := persist_replaced disk hvalid hsize hwrite
    obtain ⟨-, -, hsame⟩ := hnil.mp h
    refine ⟨hdisk, ?_⟩
    rw [hdisk]
    exact (read_marshal hvalid.version hsize).mpr ⟨hsame.symm, by rwa [hsame]⟩
  obtain ⟨e, he⟩ := persist_kept disk hfits
  simp [he] at h

end Bria.MessageJournal
