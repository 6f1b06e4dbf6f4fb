import Bria.Domain.Closure
import Bria.TelegramState.State

/-!
# The session file

What `storage/session_store.go` writes to its file and what it makes of a file that it reads. A file
is the document that was given to `json.MarshalIndent`, without the coordinator checkpoint and the
order of the records. Reading it replaces text that is not UTF-8, in values and in keys, and checks
the whole document: keys are in lower case and occur once, each record is a session that can be
restored, no two records have the same intent or id, and `Validate` accepts the Telegram state. The
times of the last events are in a file of their own; what that file has for the cards is an argument.

The two maps that are read are inverse to each other (`readSessionFile_inverse`), and each record
gives a session (`readSessionFile_session`).
-/

namespace Bria.Domain

open Go

/-- A provider as read from a file. -/
def Provider.reencode : Provider → Provider
  | .other text => .other (jsonText text)
  | provider => provider

/-- A name source as read from a file. -/
def SessionNameSource.reencode : SessionNameSource → SessionNameSource
  | .other text => .other (jsonText text)
  | source => source

/-- A status as read from a file. -/
def SessionStatus.reencode : SessionStatus → SessionStatus
  | .other text => .other (jsonText text)
  | status => status

/-- A binding as read from a file. -/
def ProviderBinding.reencode (binding : ProviderBinding) : ProviderBinding :=
  { binding with
    provider := binding.provider.reencode
    sessionID := jsonText binding.sessionID }

/-- A session record as read from a file. -/
def Session.reencode (s : Session) : Session :=
  { s with
    id := jsonText s.id
    intentID := jsonText s.intentID
    computerID := jsonText s.computerID
    provider := s.provider.reencode
    workdir := jsonText s.workdir
    name := jsonText s.name
    nameSource := s.nameSource.reencode
    model := jsonText s.model
    effort := jsonText s.effort
    status := s.status.reencode
    binding := s.binding.map ProviderBinding.reencode
    recoveryTarget := s.recoveryTarget.map SessionStatus.reencode }

end Bria.Domain

namespace Bria.TelegramState

open Go

/-- A kind as read from a file. -/
def HistoryKind.reencode : HistoryKind → HistoryKind
  | .other text => .other (jsonText text)
  | kind => kind

/-- A card as read from a file. The time of its last event is not in the file. -/
def Card.reencode (card : Card) : Card :=
  { card with
    sessionID := jsonText card.sessionID
    carrierOperation := jsonText card.carrierOperation
    lastPresentationOperation := jsonText card.lastPresentationOperation
    lastEventUnixNano := 0
    page := { card.page with anchor := jsonText card.page.anchor }
    history := card.history.map jsonText
    historyKeys := card.historyKeys.map jsonText
    historyTurnKeys := card.historyTurnKeys.map jsonText
    historyKinds := card.historyKinds.map HistoryKind.reencode
    pendingFinalOperations := card.pendingFinalOperations.map jsonText }

/-- A state as read from a file. -/
def State.reencode (s : State) : State :=
  { s with
    selectedNode := jsonText s.selectedNode
    activeSession := jsonText s.activeSession
    activeSessions := s.activeSessions.rekey jsonText jsonText
    recentSessions := s.recentSessions.rekey jsonText fun ids => ids.map jsonText
    cards := s.cards.map fun cards => cards.rekey jsonText Card.reencode }

/-- The keys of the objects of a state. -/
def State.keys (s : State) : List (List GoString) :=
  [s.activeSessions.keys, s.recentSessions.keys, s.cardMap.keys].map fun keys => keys.map jsonText

/-- `cardactivity.MainState`. -/
def State.mainState (s : State) : State :=
  { s.clone with
    cards := s.clone.cards.map fun cards => cards.update fun _ card =>
      some { card with lastEventUnixNano := 0 } }

/-- `cardactivity.Apply`, with what the file beside the session file has for the cards. It has
nothing, or nothing that fits, where the number is not positive. -/
def State.applyActivity (activity : GoString → Int) (s : State) : State :=
  { s with
    cards := s.cards.map fun cards => cards.update fun id card =>
      some (if 0 < activity id then { card with lastEventUnixNano := activity id } else card) }

end Bria.TelegramState

namespace Bria.Storage

open Go Domain TelegramState

/-! ## The document -/

/-- `sessionStoreFormatVersion`. -/
def sessionStoreFormatVersion : Int := 1

/-- `sessionFile`, without the checkpoint. -/
structure Document where
  version : Int := sessionStoreFormatVersion
  sessions : List Session
  telegramUI : Option State := none

/-- What a store has in memory of its file. -/
structure Loaded where
  byIntent : Map GoString Session := ∅
  byID : Map GoString GoString := ∅
  telegramUI : Option State := none

/-- What `writeSessionFile` writes. -/
def Loaded.document (m : Loaded) : Document where
  sessions := m.byIntent.entries.map fun e => e.2
  telegramUI := m.telegramUI.map State.mainState

/-- `statejson.ValidateKeys` of the keys of an object. -/
def validateKeys (lower : GoString → GoString) : List GoString → List GoString → Except Err Unit
  | _, [] => .ok ()
  | seen, key :: rest => do
    refuse (key != lower key) (.message ("non-canonical object key " ++ quoted key))
    refuse (seen.contains key) (.message ("duplicate object key " ++ quoted key))
    validateKeys lower (key :: seen) rest

/-- The record at an index of the document. -/
def Loaded.addRecord (m : Loaded) (index : Nat) (record : Session) : Except Err Loaded := do
  let session ← (restoreSession record.reencode).mapError
    (.wrap ("restore session record " ++ toString index ++ ": "))
  refuse (m.byIntent.lookup session.intentID).isSome
    (.message ("duplicate intent id " ++ quoted session.intentID))
  refuse (m.byID.lookup session.id).isSome
    (.message ("duplicate session id " ++ quoted session.id ++ " for intents " ++
      quoted ((m.byID.lookup session.id).getD []) ++ " and " ++ quoted session.intentID))
  .ok { m with
    byIntent := m.byIntent.insert session.intentID session
    byID := m.byID.insert session.id session.intentID }

/-- The records from an index on. -/
def Loaded.addRecords (m : Loaded) (index : Nat) : List Session → Except Err Loaded
  | [] => .ok m
  | record :: rest => do
    let m ← m.addRecord index record
    m.addRecords (index + 1) rest

/-- The Telegram state of a document. -/
def readTelegramUI (activity : GoString → Int) (ui : State) : Except Err State := do
  let ui := ui.reencode.applyActivity activity
  ui.validate.mapError (.wrap "validate Telegram UI state: ")
  .ok ui.clone

/-- `readSessionFile`. No file is an empty store. -/
def readSessionFile (lower : GoString → GoString) (activity : GoString → Int) :
    Option Document → Except Err Loaded
  | none => .ok {}
  | some document => do
    (forM (document.telegramUI.elim [] State.keys) (validateKeys lower [])).mapError
      (.wrap "decode session store: ")
    refuse (document.version ≠ sessionStoreFormatVersion)
      (.message ("unsupported session store version " ++ toString document.version ++ ", want " ++
        toString sessionStoreFormatVersion))
    let m ← Loaded.addRecords {} 0 document.sessions
    match document.telegramUI with
    | none => .ok m
    | some ui => do
      let ui ← readTelegramUI activity ui
      .ok { m with telegramUI := some ui }

/-! ## The two maps -/

/-- The sessions are under their intents, and the index of ids is the inverse of that of intents. -/
structure Inverse (m : Loaded) : Prop where
  intent : ∀ intent session, m.byIntent.lookup intent = some session → session.intentID = intent
  id : ∀ id intent, m.byID.lookup id = some intent ↔
    ∃ session, m.byIntent.lookup intent = some session ∧ session.id = id

variable {m m' : Loaded} {lower : GoString → GoString} {activity : GoString → Int}
  {intent' : GoString} {session' record : Session} {records : List Session} {file : Option Document}

theorem Inverse.empty : Inverse {} := by
  refine ⟨fun intent session h => ?_, fun id intent => ⟨fun h => ?_, fun ⟨session, h, _⟩ => ?_⟩⟩
  all_goals rw [AList.lookup_empty] at h; cases h

theorem Inverse.congr (h : Inverse m) (hintent : m'.byIntent = m.byIntent)
    (hid : m'.byID = m.byID) : Inverse m' := by
  refine ⟨fun intent session hsession => ?_, fun id intent => ?_⟩
  · rw [hintent] at hsession
    exact h.intent intent session hsession
  rw [hintent, hid]
  exact h.id id intent

variable {intent : GoString} {session : Session}

/-- An id stands for one session. -/
theorem Inverse.unique (h : Inverse m) (hsession : m.byIntent.lookup intent = some session)
    (hsession' : m.byIntent.lookup intent' = some session') (hid : session.id = session'.id) :
    intent = intent' := by
  have hlookup : m.byID.lookup session'.id = some intent := (h.id _ _).mpr ⟨session, hsession, hid⟩
  have hlookup' : m.byID.lookup session'.id = some intent' :=
    (h.id _ _).mpr ⟨session', hsession', rfl⟩
  exact mem_unique hlookup hlookup'

theorem Inverse.insert (h : Inverse m) {ui : Option State}
    (hintent : m.byIntent.lookup session.intentID = none) (hid : m.byID.lookup session.id = none) :
    Inverse ⟨m.byIntent.insert session.intentID session,
      m.byID.insert session.id session.intentID, ui⟩ := by
  refine ⟨fun intent other hother => ?_, fun id intent => ?_⟩
  · rcases of_lookup_insert hother with ⟨rfl, rfl⟩ | hother
    · rfl
    · exact h.intent intent other hother
  rw [lookup_insert, lookup_insert]
  by_cases hsame : id = session.id
  · -- No other session has the id.
    rw [if_pos hsame]
    constructor
    · intro hi
      obtain rfl := some.inj hi
      exact ⟨session, if_pos rfl, hsame.symm⟩
    rintro ⟨other, hother, hotherID⟩
    split at hother
    · rename_i hi
      rw [hi]
    have hlookup := (h.id id intent).mpr ⟨other, hother, hotherID⟩
    rw [hsame, hid] at hlookup
    cases hlookup
  · rw [if_neg hsame, h.id]
    constructor
    · rintro ⟨other, hother, hotherID⟩
      have hne : intent ≠ session.intentID := by
        rintro rfl
        rw [hintent] at hother
        cases hother
      exact ⟨other, by rw [if_neg hne]; exact hother, hotherID⟩
    rintro ⟨other, hother, hotherID⟩
    split at hother
    · exact absurd (some.inj hother ▸ hotherID.symm) hsame
    · exact ⟨other, hother, hotherID⟩

/-! ## What is read -/

variable {index : Nat}

theorem addRecord_eq_ok (h : m.addRecord index record = .ok m') :
    ∃ session, restoreSession record.reencode = .ok session ∧
      m.byIntent.lookup session.intentID = none ∧ m.byID.lookup session.id = none ∧
      m' = { m with
        byIntent := m.byIntent.insert session.intentID session
        byID := m.byID.insert session.id session.intentID } := by
  obtain ⟨session, hsession, h⟩ := bind_eq_ok.mp h
  obtain ⟨hintent, h⟩ := check_eq_ok.mp h
  obtain ⟨hid, h⟩ := check_eq_ok.mp h
  obtain rfl := ok.inj h
  have hintent' := refuse_eq_ok.mp hintent
  have hid' := refuse_eq_ok.mp hid
  exact ⟨session, mapError_eq_ok.mp hsession, by simpa using hintent', by simpa using hid', rfl⟩

theorem restored_eq (h : restoreSession record.reencode = .ok session) :
    session.id = jsonText record.id ∧ session.intentID = jsonText record.intentID ∧
      session.computerID = jsonText record.computerID ∧
      session.provider = record.provider.reencode ∧ session.workdir = jsonText record.workdir ∧
      session.status = record.status.reencode := by
  obtain ⟨-, -, -, source, -, rfl, -, -⟩ := restoreSession_eq_ok.mp h
  exact ⟨rfl, rfl, rfl, rfl, rfl, rfl⟩

/-- The records give maps that are inverse to each other, with a session for each record, and their
ids are distinct as they come back. -/
theorem addRecords_eq_ok (hm : Inverse m) (h : m.addRecords index records = .ok m') :
    Inverse m' ∧
      (∀ intent session, m.byIntent.lookup intent = some session →
        m'.byIntent.lookup intent = some session) ∧
      (∀ record ∈ records, m.byID.lookup (jsonText record.id) = none ∧
        ∃ session, restoreSession record.reencode = .ok session ∧
          m'.byIntent.lookup (jsonText record.intentID) = some session) ∧
      (records.map fun record => jsonText record.id).Nodup := by
  induction records generalizing m index with
  | nil =>
    obtain rfl := ok.inj h
    exact ⟨hm, fun _ _ h => h, by simp, List.nodup_nil⟩
  | cons record rest ih =>
    obtain ⟨m1, hadd, h⟩ := bind_eq_ok.mp h
    obtain ⟨session, hsession, hintent, hid, rfl⟩ := addRecord_eq_ok hadd
    obtain ⟨hsid, hsintent, -⟩ := restored_eq hsession
    obtain ⟨hinverse, hkeeps, hrest, hnodup⟩ := ih (hm.insert hintent hid) h
    refine ⟨hinverse, fun intent other hother => ?_, fun r hr => ?_, ?_⟩
    · refine hkeeps intent other ?_
      rw [lookup_insert, if_neg]
      · exact hother
      rintro rfl
      rw [hintent] at hother
      cases hother
    · rcases mem_cons.mp hr with rfl | hr
      · refine ⟨hsid ▸ hid, session, hsession, hkeeps _ _ ?_⟩
        rw [← hsintent, AList.lookup_insert]
      obtain ⟨hnone, hthere⟩ := hrest r hr
      rw [lookup_insert] at hnone
      split at hnone
      · cases hnone
      · exact ⟨hnone, hthere⟩
    refine nodup_cons.mpr ⟨fun hmem => ?_, hnodup⟩
    -- The id of a later record is not in the index that has this one.
    obtain ⟨r, hr, hsame⟩ := mem_map.mp hmem
    have hnone := (hrest r hr).1
    have hid' : jsonText r.id = session.id := hsame.trans hsid.symm
    rw [hid', AList.lookup_insert] at hnone
    cases hnone

theorem addRecords_telegramUI (h : m.addRecords index records = .ok m') :
    m'.telegramUI = m.telegramUI := by
  induction records generalizing m index with
  | nil =>
    obtain rfl := ok.inj h
    rfl
  | cons record rest ih =>
    obtain ⟨m1, hadd, h⟩ := bind_eq_ok.mp h
    obtain ⟨session, -, -, -, rfl⟩ := addRecord_eq_ok hadd
    rw [ih h]

theorem readSessionFile_eq_ok {document : Document}
    (h : readSessionFile lower activity (some document) = .ok m) :
    (∃ index, Loaded.addRecords {} 0 document.sessions = .ok index ∧
      m.byIntent = index.byIntent ∧ m.byID = index.byID) ∧
      (document.telegramUI = none ∧ m.telegramUI = none ∨
        ∃ ui ui', document.telegramUI = some ui ∧ readTelegramUI activity ui = .ok ui' ∧
          m.telegramUI = some ui') := by
  replace h := of_check h
  replace h := of_check h
  obtain ⟨index, hindex, h⟩ := bind_eq_ok.mp h
  split at h
  · rename_i hui
    obtain rfl := ok.inj h
    exact ⟨⟨index, hindex, rfl, rfl⟩, .inl ⟨hui, addRecords_telegramUI hindex⟩⟩
  rename_i ui hui
  obtain ⟨ui', hread, h⟩ := bind_eq_ok.mp h
  obtain rfl := ok.inj h
  exact ⟨⟨index, hindex, rfl, rfl⟩, .inr ⟨ui, ui', hui, hread, rfl⟩⟩

theorem readSessionFile_inverse (h : readSessionFile lower activity file = .ok m) : Inverse m := by
  cases file with
  | none =>
    obtain rfl := ok.inj h
    exact Inverse.empty
  | some document =>
    obtain ⟨⟨index, hindex, hintent, hid⟩, -⟩ := readSessionFile_eq_ok h
    exact (addRecords_eq_ok Inverse.empty hindex).1.congr hintent hid

theorem readSessionFile_byIntent {activity' : GoString → Int}
    (h : readSessionFile lower activity file = .ok m)
    (h' : readSessionFile lower activity' file = .ok m') : m'.byIntent = m.byIntent := by
  rcases file with _ | document
  · rw [← ok.inj h, ← ok.inj h']
  obtain ⟨⟨index, hindex, hintent, -⟩, -⟩ := readSessionFile_eq_ok h
  obtain ⟨⟨index', hindex', hintent', -⟩, -⟩ := readSessionFile_eq_ok h'
  obtain rfl := ok.inj (hindex.symm.trans hindex')
  rw [hintent, hintent']

section

variable (h : readSessionFile lower activity (some m.document) = .ok m')
  (hsession : m.byIntent.lookup intent = some session)
include h hsession

theorem readSessionFile_session :
    ∃ session', restoreSession session.reencode = .ok session' ∧
      m'.byIntent.lookup (jsonText session.intentID) = some session' := by
  obtain ⟨⟨index, hindex, hintent, -⟩, -⟩ := readSessionFile_eq_ok h
  obtain ⟨-, -, hrecords, -⟩ := addRecords_eq_ok Inverse.empty hindex
  rw [hintent]
  exact (hrecords session (mem_map.mpr ⟨_, mem_entries.mpr hsession, rfl⟩)).2

/-- Two sessions that are written have distinct ids when they are read. -/
theorem readSessionFile_ids (hsession' : m.byIntent.lookup intent' = some session')
    (hid : jsonText session.id = jsonText session'.id) : session = session' := by
  obtain ⟨⟨index, hindex, -, -⟩, -⟩ := readSessionFile_eq_ok h
  obtain ⟨-, -, -, hnodup⟩ := addRecords_eq_ok Inverse.empty hindex
  exact List.inj_on_of_nodup_map hnodup
    (mem_map.mpr ⟨_, mem_entries.mpr hsession, rfl⟩)
    (mem_map.mpr ⟨_, mem_entries.mpr hsession', rfl⟩) hid

end

end Bria.Storage
