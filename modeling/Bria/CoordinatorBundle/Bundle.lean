import Bria.Base.Table
import Bria.Coordinator.Types
import Bria.CoordinatorTransfer.Parties
import Bria.Domain.Session
import Bria.MessageJournal.Types

/-!
# The coordinator bundle

`internal/coordinatorbundle`: the state that moves in a coordinator handoff, and `Validate`, which
both sides run on it. The checkpoint, the sessions and the journals are modelled in full. The other
parts are checked by themselves or against the sessions and the Telegram scope: the catalog, the
settings, the Telegram UI, the routes, and the state of callbacks. They are one type with its
checks (`Parts`), in the order in which `Validate` makes them.
-/

namespace Bria.CoordinatorBundle

open Go Domain MessageJournal Coordinator
open CoordinatorTransfer (TelegramScope)

/-- `Version`. -/
def bundleVersion : Int := 2

/-- `JournalSession`. -/
structure JournalSession where
  sessionID : GoString
  nextSequence : Nat
  recoveryOpen : Bool := false

/-- The sessions of a bundle by id, as `Validate` collects them. -/
abbrev Sessions := Map GoString Session

/-- The checks of the other parts. -/
class Parts (P : Type) where
  /-- The catalog and the settings. -/
  validateConfiguration : P → Except Err Unit
  /-- The Telegram UI, the callback registry, the callback operations and the key id. -/
  validateSurfaces : P → Except Err Unit
  /-- The ids of the catalog's computers. -/
  computers : P → List GoString
  /-- Cards and routes. -/
  validateLinks : P → TelegramScope → Sessions → Except Err Unit
  /-- Presentations and operations of callbacks. -/
  validateCallbacks : P → TelegramScope → Sessions → Except Err Unit

/-- `Bundle`. -/
structure Bundle (P : Type) where
  version : Int
  parts : P
  sessions : List Session
  telegramScope : TelegramScope
  journals : List JournalSession
  inputs : List Input
  outputs : List Output
  checkpoint : StoredCheckpoint

/-- `invalid`. -/
def invalid (text : String) : Err := .wrap text (err .invalidBundle)

/-! ## Journals -/

/-- One turn of the loop over the journals: the high-water marks by session. -/
def scanJournal (sessions : Sessions) (high : Map GoString Nat) (journal : JournalSession) :
    Except Err (Map GoString Nat) := do
  refuse (journal.nextSequence = 0 || journal.recoveryOpen) (invalid "journal high-water")
  refuse (sessions.lookup journal.sessionID).isNone (invalid "journal session")
  refuse (high.lookup journal.sessionID).isSome (invalid "duplicate journal session")
  return high.insert journal.sessionID journal.nextSequence

/-- What the loops over inputs and outputs read of a record. -/
structure JournalRecord where
  (id sessionID : GoString)
  sequence : Nat
  payload : GoString
  lease : Lease
  phaseValid : Bool

/-- `validInputPhase`. -/
def validInputPhase (phase : Option InputPhase) : Bool := phase.isSome

/-- `validOutputPhase`. -/
def validOutputPhase : Option OutputPhase → Bool
  | some .pending | some .confirmed | some .failed | some .unknown => true
  | _ => false

/-- An input in the loop. -/
def inputRecord (input : Input) : JournalRecord where
  id := input.messageID
  sessionID := input.sessionID
  sequence := input.sequence
  payload := input.payload
  lease := input.lease
  phaseValid := validInputPhase input.phase

/-- An output in the loop. -/
def outputRecord (output : Output) : JournalRecord where
  id := output.operationID
  sessionID := output.sessionID
  sequence := output.sequence
  payload := output.payload
  lease := output.lease
  phaseValid := validOutputPhase output.phase

/-- The variables of a loop: the ids that it has seen, and the sequence numbers by session. -/
structure Scan where
  ids : List GoString := []
  sequences : List (GoString × Nat) := []

/-- The variables after a record that passes. -/
def Scan.advance (scan : Scan) (record : JournalRecord) : Scan where
  ids := record.id :: scan.ids
  sequences := (record.sessionID, record.sequence) :: scan.sequences

/-- A lease is on the record. -/
def leased (lease : Lease) : Bool :=
  lease.owner ≠ [] || lease.untilTime.any fun time => !time.isZero

/-- One turn of the loop over the inputs, or of the one over the outputs. -/
def scanRecord (name : String) (high : Map GoString Nat) (scan : Scan) (record : JournalRecord) :
    Except Err Scan := do
  refuse (blank record.id || record.sequence = 0 || decide (0x100000 < record.payload.length) ||
    leased record.lease) (invalid name)
  refuse (scan.ids.contains record.id) (invalid ("duplicate " ++ name))
  refuse (!record.phaseValid) (invalid (name ++ " phase"))
  refuse (high.lookup record.sessionID).isNone (invalid (name ++ " journal"))
  refuse (scan.sequences.contains (record.sessionID, record.sequence)) (invalid "duplicate sequence")
  return scan.advance record

/-- One turn of the last loop: the numbers of a session are all numbers up to its mark. -/
def checkHigh (sequences : List (GoString × Nat)) (entry : Σ _ : GoString, Nat) : Except Err Unit := do
  refuse ((sequences.filter fun pair => pair.1 = entry.1).length ≠ entry.2)
    (invalid "journal sequence count")
  refuse ((List.range' 1 entry.2).any fun number => !sequences.contains (entry.1, number))
    (invalid "journal sequence gap")

/-- `validateJournals`. -/
def validateJournals (journals : List JournalSession) (inputs : List Input) (outputs : List Output)
    (sessions : Sessions) : Except Err Unit := do
  let high ← journals.foldlM (scanJournal sessions) ∅
  let read ← (inputs.map inputRecord).foldlM (scanRecord "input" high) {}
  let written ← (outputs.map outputRecord).foldlM (scanRecord "output" high)
    { sequences := read.sequences }
  high.entries.forM (checkHigh written.sequences)

/-! ## Validation -/

/-- One turn of the loop over the sessions. -/
def scanSession (computers : List GoString) (seen : Sessions × List GoString) (snapshot : Session) :
    Except Err (Sessions × List GoString) := do
  refuse (seen.1.lookup snapshot.id).isSome (invalid "duplicate session")
  refuse (seen.2.contains snapshot.intentID) (invalid "duplicate session intent")
  let _ ← (restoreSession snapshot).mapError fun _ => invalid "session: "
  refuse (!computers.contains snapshot.computerID) (invalid "session computer")
  return (seen.1.insert snapshot.id snapshot, snapshot.intentID :: seen.2)

/-- The check of `Validate` on the checkpoint. -/
def validateCheckpoint (stored : StoredCheckpoint) : Except Err Unit :=
  refuse (!stored.checkpoint.initialized || stored.checkpoint.nextUpdateID < 0 ||
    stored.revision = 0) (invalid "checkpoint")

/-- The check of `Validate` on the Telegram scope. -/
def validateScope (scope : TelegramScope) : Except Err Unit :=
  refuse (scope.botID ≤ 0 || scope.ownerUserID ≤ 0 || scope.privateChatID ≤ 0)
    (invalid "telegram scope")

/-- The check of `Validate` on the conversation of the outbound operation. -/
def validateConversation (stored : StoredCheckpoint) (scope : TelegramScope) : Except Err Unit :=
  refuse (stored.checkpoint.outbound.any fun outbound =>
    outbound.status.conversationID ≠ scope.privateChatID) (invalid "checkpoint Telegram scope")

variable {P : Type} [Parts P] {journals : List JournalSession}

/-- `Validate`. -/
def Bundle.validate (bundle : Bundle P) : Except Err Unit := do
  refuse (bundle.version ≠ bundleVersion) (invalid "version")
  Parts.validateConfiguration bundle.parts
  validateCheckpoint bundle.checkpoint
  validateScope bundle.telegramScope
  validateConversation bundle.checkpoint bundle.telegramScope
  Parts.validateSurfaces bundle.parts
  let seen ← bundle.sessions.foldlM (scanSession (Parts.computers bundle.parts)) (∅, [])
  Parts.validateLinks bundle.parts bundle.telegramScope seen.1
  validateJournals bundle.journals bundle.inputs bundle.outputs seen.1
  Parts.validateCallbacks bundle.parts bundle.telegramScope seen.1

/-! ## What the journal loops establish -/

variable {sessions : Sessions} {high high' : Map GoString Nat} {name : String} {scan scan' : Scan}

/-- What a journal has to be by itself. -/
structure JournalSession.Valid (sessions : Sessions) (journal : JournalSession) : Prop where
  positive : journal.nextSequence ≠ 0
  closed : journal.recoveryOpen = false
  known : (sessions.lookup journal.sessionID).isSome

/-- The marks of the journals. -/
def marks (journals : List JournalSession) : Map GoString Nat :=
  journals.foldl (fun high journal => high.insert journal.sessionID journal.nextSequence) ∅

theorem scanJournals_ok_iff :
    journals.foldlM (scanJournal sessions) ∅ = .ok high ↔
      (∀ journal ∈ journals, journal.Valid sessions) ∧
        journals.Pairwise (fun a b => a.sessionID ≠ b.sessionID) ∧ high = marks journals := by
  have hstep : ∀ (high : Map GoString Nat) (journal : JournalSession) (high' : Map GoString Nat),
      scanJournal sessions high journal = .ok high' ↔ journal.Valid sessions ∧
        high.lookup journal.sessionID = none ∧
        high' = high.insert journal.sessionID journal.nextSequence := by
    intro high journal high'
    simp only [scanJournal, check_eq_ok, refuse_eq_ok, or_eq_false_iff,
      decide_eq_false_iff_not, pure, Except.pure, ok.injEq, isSome_eq_false_iff,
      isNone_iff_eq_none, Option.isNone_eq_false_iff]
    constructor
    · rintro ⟨⟨hpositive, hclosed⟩, hknown, hnew, rfl⟩
      exact ⟨⟨hpositive, hclosed, hknown⟩, hnew, rfl⟩
    rintro ⟨⟨hpositive, hclosed, hknown⟩, hnew, rfl⟩
    exact ⟨⟨hpositive, hclosed⟩, hknown, hnew, rfl⟩
  have hfresh : ∀ (high : Map GoString Nat) (a b : JournalSession),
      (high.insert a.sessionID a.nextSequence).lookup b.sessionID = none ↔
        a.sessionID ≠ b.sessionID ∧ high.lookup b.sessionID = none := by
    intro high a b
    by_cases h : a.sessionID = b.sessionID <;> simp [h, eq_comm]
  rw [Table.scan_fresh_ok_iff hstep hfresh]
  simp [marks]

/-- What a record has to be by itself. -/
structure JournalRecord.Valid (high : Map GoString Nat) (record : JournalRecord) : Prop where
  named : blank record.id = false
  positive : record.sequence ≠ 0
  short : record.payload.length ≤ 0x100000
  unleased : leased record.lease = false
  phase : record.phaseValid
  journal : (high.lookup record.sessionID).isSome

/-- The number of a record, with its session. -/
def JournalRecord.place (record : JournalRecord) : GoString × Nat :=
  (record.sessionID, record.sequence)

/-- The meaning of the loop over the inputs, and of the one over the outputs. -/
theorem scanRecords_ok_iff {records : List JournalRecord} {places : List (GoString × Nat)} :
    records.foldlM (scanRecord name high) { sequences := places } = .ok scan ↔
      (∀ record ∈ records, record.Valid high) ∧ (records.map (·.id)).Nodup ∧
        (records.map (·.place)).Nodup ∧ (∀ record ∈ records, record.place ∉ places) ∧
        scan = records.foldl Scan.advance { sequences := places } := by
  have hstep : ∀ (scan : Scan) (record : JournalRecord) (scan' : Scan),
      scanRecord name high scan record = .ok scan' ↔ record.Valid high ∧
        (record.id ∉ scan.ids ∧ record.place ∉ scan.sequences) ∧ scan' = scan.advance record := by
    intro scan record scan'
    simp only [scanRecord, check_eq_ok, refuse_eq_ok, or_eq_false_iff,
      decide_eq_false_iff_not, pure, Except.pure, ok.injEq, Option.isNone_eq_false_iff,
      not_eq_false', contains_eq_mem, Nat.not_lt]
    constructor
    · rintro ⟨⟨⟨⟨hnamed, hpositive⟩, hshort⟩, hunleased⟩, hid, hphase, hjournal, hplace, rfl⟩
      exact ⟨⟨hnamed, hpositive, hshort, hunleased, hphase, hjournal⟩, ⟨hid, hplace⟩, rfl⟩
    rintro ⟨⟨hnamed, hpositive, hshort, hunleased, hphase, hjournal⟩, ⟨hid, hplace⟩, rfl⟩
    exact ⟨⟨⟨⟨hnamed, hpositive⟩, hshort⟩, hunleased⟩, hid, hphase, hjournal, hplace, rfl⟩
  have hfresh : ∀ (scan : Scan) (a b : JournalRecord),
      (b.id ∉ (scan.advance a).ids ∧ b.place ∉ (scan.advance a).sequences) ↔
        (a.id ≠ b.id ∧ a.place ≠ b.place) ∧ b.id ∉ scan.ids ∧ b.place ∉ scan.sequences := by
    intro scan a b
    simp only [Scan.advance, mem_cons, not_or, ne_eq]
    constructor
    · rintro ⟨⟨hid, hids⟩, hplace, hplaces⟩
      exact ⟨⟨fun h => hid h.symm, fun h => hplace h.symm⟩, hids, hplaces⟩
    rintro ⟨⟨hid, hplace⟩, hids, hplaces⟩
    exact ⟨⟨fun h => hid h.symm, hids⟩, fun h => hplace h.symm, hplaces⟩
  rw [Table.scan_fresh_ok_iff hstep hfresh]
  simp only [List.Nodup, pairwise_map, not_mem_nil, not_false_eq_true, true_and]
  constructor
  · rintro ⟨hall, hpair, hplaces, hscan⟩
    exact ⟨hall, hpair.imp fun h => h.1, hpair.imp fun h => h.2, hplaces, hscan⟩
  rintro ⟨hall, hids, hnumbers, hplaces, hscan⟩
  exact ⟨hall, hids.and hnumbers, hplaces, hscan⟩

/-- The numbers that a loop leaves. -/
theorem foldl_advance_sequences (records : List JournalRecord) (scan : Scan) :
    (records.foldl Scan.advance scan).sequences =
      (records.map (·.place)).reverse ++ scan.sequences := by
  induction records generalizing scan with
  | nil => rfl
  | cons record records ih =>
    rw [foldl_cons, ih, map_cons, List.reverse_cons, append_assoc]
    rfl

theorem checkHigh_ok_iff {places : List (GoString × Nat)} {id : GoString} {last : Nat} :
    checkHigh places ⟨id, last⟩ = .ok () ↔
      (places.filter fun place => place.1 = id).length = last ∧
        ∀ number, 1 ≤ number → number ≤ last → (id, number) ∈ places := by
  simp only [checkHigh, check_eq_ok, refuse_eq_ok, ne_eq, decide_not, not_eq_false',
    decide_eq_true_eq, any_eq_false, List.mem_range'_1, contains_eq_mem, Bool.not_eq_true']
  refine and_congr Iff.rfl ⟨fun h number hlow hhigh => ?_, fun h number hrange => ?_⟩
  · have hmem := h number ⟨hlow, by omega⟩
    simpa using hmem
  have hmem := h number hrange.1 (by omega)
  simpa using hmem

/-- The records of a bundle, those of its inputs first. -/
def records (inputs : List Input) (outputs : List Output) : List JournalRecord :=
  inputs.map inputRecord ++ outputs.map outputRecord

/-- The numbers of a bundle's records, with their sessions. -/
def places (inputs : List Input) (outputs : List Output) : List (GoString × Nat) :=
  (records inputs outputs).map (·.place)

/-- What `validateJournals` asks of the records, given the marks. -/
structure RecordsValid (high : Map GoString Nat) (inputs : List Input) (outputs : List Output) :
    Prop where
  records : ∀ record ∈ records inputs outputs, record.Valid high
  messageIDs : (inputs.map (·.messageID)).Nodup
  operationIDs : (outputs.map (·.operationID)).Nodup
  places : (places inputs outputs).Nodup
  full : ∀ id last, high.lookup id = some last →
    ((CoordinatorBundle.places inputs outputs).filter fun place => place.1 = id).length = last ∧
      ∀ number, 1 ≤ number → number ≤ last → (id, number) ∈ CoordinatorBundle.places inputs outputs

theorem validateJournals_ok_iff {inputs : List Input} {outputs : List Output} :
    validateJournals journals inputs outputs sessions = .ok () ↔
      (∀ journal ∈ journals, journal.Valid sessions) ∧
        journals.Pairwise (fun a b => a.sessionID ≠ b.sessionID) ∧
        RecordsValid (marks journals) inputs outputs := by
  -- The loops leave the numbers in the opposite order.
  have hperm : (((outputs.map outputRecord).map JournalRecord.place).reverse ++
      (((inputs.map inputRecord).map JournalRecord.place).reverse ++ [])).Perm
      (places inputs outputs) := by
    rw [append_nil, places, records, map_append]
    exact List.perm_append_comm.trans ((List.reverse_perm _).append (List.reverse_perm _))
  have hids : (inputs.map inputRecord).map JournalRecord.id = inputs.map (·.messageID) := by
    rw [map_map]
    rfl
  have hoperations : (outputs.map outputRecord).map JournalRecord.id =
      outputs.map (·.operationID) := by
    rw [map_map]
    rfl
  have hnodup : (places inputs outputs).Nodup ↔
      ((inputs.map inputRecord).map JournalRecord.place).Nodup ∧
        ((outputs.map outputRecord).map JournalRecord.place).Nodup ∧
        ∀ record ∈ outputs.map outputRecord,
          record.place ∉ ((inputs.map inputRecord).map JournalRecord.place).reverse ++ [] := by
    rw [places, records, map_append, List.nodup_append]
    refine and_congr_right fun _ => and_congr_right fun _ => ?_
    simp only [append_nil, List.mem_reverse]
    constructor
    · intro h record hrecord hmem
      exact h _ hmem _ (mem_map_of_mem hrecord) rfl
    rintro h a ha b hb rfl
    obtain ⟨record, hrecord, rfl⟩ := mem_map.mp hb
    exact h record hrecord ha
  have hfull : ∀ high : Map GoString Nat, forM high.entries (checkHigh
      (((outputs.map outputRecord).map JournalRecord.place).reverse ++
        (((inputs.map inputRecord).map JournalRecord.place).reverse ++ []))) = .ok () ↔
      ∀ id last, high.lookup id = some last →
        ((places inputs outputs).filter fun place => place.1 = id).length = last ∧
          ∀ number, 1 ≤ number → number ≤ last → (id, number) ∈ places inputs outputs := by
    intro high
    simp only [Map.forM_entries_eq_ok, checkHigh_ok_iff, hperm.mem_iff, (hperm.filter _).length_eq]
  constructor
  · intro h
    obtain ⟨high, hhigh, h⟩ := bind_eq_ok.mp h
    obtain ⟨hjournals, hdistinct, rfl⟩ := scanJournals_ok_iff.mp hhigh
    obtain ⟨read, hread, h⟩ := bind_eq_ok.mp h
    obtain ⟨hin, hinIDs, hinPlaces, -, rfl⟩ := scanRecords_ok_iff.mp hread
    obtain ⟨written, hwritten, h⟩ := bind_eq_ok.mp h
    obtain ⟨hout, houtIDs, houtPlaces, hnew, rfl⟩ := scanRecords_ok_iff.mp hwritten
    simp only [foldl_advance_sequences] at hnew h
    refine ⟨hjournals, hdistinct, ?_, hids ▸ hinIDs, hoperations ▸ houtIDs,
      hnodup.mpr ⟨hinPlaces, houtPlaces, hnew⟩, (hfull _).mp h⟩
    intro record hrecord
    rcases mem_append.mp hrecord with hrecord | hrecord
    · exact hin record hrecord
    · exact hout record hrecord
  · rintro ⟨hjournals, hdistinct, hrecords, hmessageIDs, hoperationIDs, hplaces, hcount⟩
    obtain ⟨hinPlaces, houtPlaces, hnew⟩ := hnodup.mp hplaces
    refine bind_eq_ok.mpr ⟨_, scanJournals_ok_iff.mpr ⟨hjournals, hdistinct, rfl⟩, ?_⟩
    refine bind_eq_ok.mpr ⟨_, scanRecords_ok_iff.mpr ⟨fun record hrecord =>
      hrecords record (mem_append_left _ hrecord), hids ▸ hmessageIDs, hinPlaces,
      fun _ _ => not_mem_nil, rfl⟩, ?_⟩
    refine bind_eq_ok.mpr ⟨_, scanRecords_ok_iff.mpr ⟨fun record hrecord =>
      hrecords record (mem_append_right _ hrecord), hoperations ▸ hoperationIDs, houtPlaces,
      ?_, rfl⟩, ?_⟩
    · rw [foldl_advance_sequences]
      exact hnew
    simp only [foldl_advance_sequences]
    exact (hfull _).mpr hcount

end Bria.CoordinatorBundle
