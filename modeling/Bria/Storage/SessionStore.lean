import Bria.ArchiveImport.Merge
import Bria.Base.Cached
import Bria.CardHistory.Operations
import Bria.SessionLabel.Unique
import Bria.Storage.File
import Bria.Storage.Selection

/-!
# The session store

`SessionStore` of `storage/session_store.go`, with the deletions of `empty_close.go` and the card
writers. An operation reads the file again if it is not the one that the store has in memory, decides
on what is in memory, writes the whole document, and then keeps in memory what it wrote. The mutex is
held to the end, so operations do not overlap.

An operation is a `Plan` for what is in memory, which `transact` carries out. The write may fail
before or after the file is replaced, and a reading of the file may fail; what the file system does is
an argument (`World`). A copy counts as old if the generation of the file or of the activity file
beside it changes, and a write that is refused may already have replaced the latter. An import and a
checkpoint read the file again after the write; if that fails, memory stays as it was, but counts as
the copy of the new file.
-/

namespace Bria.Domain

open Go

/-- The zero `Session`. -/
def Session.zero : Session where
  id := []
  intentID := []
  computerID := []
  provider := .other []
  workdir := []
  status := .other []
  createdAt := ⟨-62135596800000000000⟩
  stateChangedAt := ⟨-62135596800000000000⟩
  lifetime := lifetimeNever

end Bria.Domain

namespace Bria.Storage

open Go Domain TelegramState CardHistory Machine

/-! ## The store and its file -/

/-- How the file system answers to an inspection and reading of the files: with an error, or with
what the activity file has. -/
structure Reading where
  fault : Option Err := none
  activity : GoString → Int := fun _ => 0

/-- What an operation meets outside of the store. -/
structure World where
  ctx : Context := {}
  now : Time := ⟨0⟩
  /-- The reading at the start of the operation. -/
  reading : Reading := {}
  /-- An import finds its context cancelled when it is about to write. -/
  cancelledBeforeWrite : Bool := false
  write : Write := .done
  /-- The error of a write that fails. -/
  fault : Err := .message "write session store"
  /-- A refused write has replaced the activity file. -/
  beside : Bool := false
  /-- The reading after the write. -/
  rereading : Reading := {}

/-- `SessionStore`. -/
structure Store extends Cached Loaded (Option Document) where
  deletedEmpty : Map GoString Session := ∅

/-- The file of what is in memory. -/
def encode (m : Loaded) : Option Document := some m.document

/-- The session under an intent, the zero one if there is none. -/
def Loaded.session (m : Loaded) (intent : GoString) : Session :=
  (m.byIntent.lookup intent).getD .zero

/-- What `writeFile` and the assignment of the generation do. -/
def Store.persist (w : World) (m : Loaded) (s : Store) : Except Err Unit × Store :=
  (if w.write = .done then .ok () else .error w.fault,
    { s with toCached := s.toCached.write w.write w.beside (encode m) })

/-- What an operation decides to do. -/
inductive Plan (α : Type) where
  /-- Return. -/
  | answer (a : α)
  /-- Write, and on success keep this in memory, with the receipt of a deletion, and return. -/
  | write (next : Loaded) (receipt : Option Session) (a : α)

/-- What an operation does when its write has failed. -/
inductive AfterFailure where
  /-- It returns. -/
  | keep
  /-- It reloads and ignores how that ends. -/
  | reload
  /-- It reloads and joins the errors. -/
  | reloadJoining

variable (lower digest : GoString → GoString)

/-- `readVerifiedSessionFile`. -/
def readVerified (reading : Reading) (file : Option Document) : Except Err Loaded :=
  match reading.fault with
  | some e => .error e
  | none => readSessionFile lower reading.activity file

/-- `OpenSessionStore`. -/
def openSessionStore (reading : Reading) (file : Option Document) : Except Err Store := do
  let m ← readVerified lower reading file
  .ok { memory := m, file, fresh := true }

/-- `reload`. -/
def Store.reload (reading : Reading) (s : Store) : Except Err Store :=
  match reading.fault with
  | some e => .error e
  | none => do
    let c ← (s.toCached.reload (readSessionFile lower) reading.activity).mapError
      (.wrap "reload session store: ")
    .ok { s with toCached := c }

/-- The return after a failed write. -/
def Store.fail {α : Type} (w : World) (after : AfterFailure) (e : Err) (s : Store) :
    Except Err α × Store :=
  match after with
  | .keep => (.error e, s)
  | .reload => (.error e, (s.reload lower w.rereading).toOption.getD s)
  | .reloadJoining =>
    match s.reload lower w.rereading with
    | .ok s => (.error e, s)
    | .error e' => (.error (.join e e'), s)

/-- An operation after its checks: reload, decide, write. -/
def Store.transact {α : Type} (w : World) (after : AfterFailure) (what : String)
    (plan : Store → Except Err (Plan α)) (s : Store) : Except Err α × Store :=
  match s.reload lower w.reading with
  | .error e => (.error e, s)
  | .ok s =>
    match plan s with
    | .error e => (.error e, s)
    | .ok (.answer a) => (.ok a, s)
    | .ok (.write next receipt a) =>
      match s.persist w next with
      | (.error e, s) => s.fail lower w after (.wrap what e)
      | (.ok (), s) =>
        (.ok a, { s with
          memory := next
          deletedEmpty := receipt.elim s.deletedEmpty fun r => s.deletedEmpty.insert r.id r })

/-- An operation that checks something first. -/
def Store.checked {α : Type} (check : Except Err Unit) (action : Store → Except Err α × Store)
    (s : Store) : Except Err α × Store :=
  match check with
  | .error e => (.error e, s)
  | .ok () => action s

/-! ## Sessions -/

/-- `validateSessionValue`. -/
def validateSessionValue (session : Session) : Except Err Unit := do
  let restored ← restoreSession session.snapshot
  refuse (!restored.equal session) (.message "session value does not match its snapshot")

/-- `sameIdentity`. -/
def sameIdentity (left right : Session) : Bool :=
  left.id == right.id && left.intentID == right.intentID && left.computerID == right.computerID &&
    left.provider == right.provider && left.workdir == right.workdir

/-- `hasWorkStatus`. -/
def hasWorkStatus : SessionStatus → Bool
  | .running | .stopping | .closingAfterWork => true
  | _ => false

variable (m : Loaded) (now : Time) (w : World) (expected : Session)

/-- The Telegram state that an operation starts from. -/
def Loaded.currentUI : State := (m.telegramUI.map State.clone).getD .new

/-- What is in memory with another session under an intent that has one. -/
def Loaded.replaced (intent : GoString) (next : Session) : Loaded :=
  { m with byIntent := m.byIntent.insert intent next }

/-- What is in memory with a new session, and a card that is known to be empty. -/
def Loaded.inserted (session : Session) : Loaded where
  byIntent := m.byIntent.insert session.intentID session
  byID := m.byID.insert session.id session.intentID
  telegramUI := some { m.currentUI with
    cards := some (m.currentUI.cardMap.insert session.id
      { newCard session.id with emptyCloseEligible := true }) }

/-- The checks of `PutStartingIfAbsent`. -/
def checkPut (session : Session) : Except Err Unit := do
  checkContext w.ctx
  (validateSessionValue session).mapError (.wrap "validate starting session: ")
  refuse (session.status ≠ .starting)
    (.wrap (": insert status " ++ quoted session.status.text ++ ", want \"starting\"")
      (err .invariantConflict))
  recheckContext w.ctx

/-- A new session with a name that no other session has. -/
def named (sessions : Map GoString Session) (session : Session) : Except Err Session :=
  if session.name ≠ [] then
    (restoreSession { session.snapshot with
      name := SessionLabel.unique lower sessions [] session.name }).mapError
        (.wrap "assign unique session name: ")
  else .ok session

/-- What `PutStartingIfAbsent` decides. -/
def planPut (session : Session) (s : Store) : Except Err (Plan (Session × Bool)) :=
  match s.memory.byIntent.lookup session.intentID with
  | some existing => .ok (.answer (existing, false))
  | none =>
    match s.memory.byID.lookup session.id with
    | some intent => .error (.wrap (": session id " ++ quoted session.id ++
        " already belongs to intent " ++ quoted intent) (err .invariantConflict))
    | none => do
      let session ← named lower s.memory.byIntent session
      .ok (.write (s.memory.inserted session) none (session, true))

/-- `PutStartingIfAbsent`. -/
def Store.putStartingIfAbsent (session : Session) : Store → Except Err (Session × Bool) × Store :=
  checked (checkPut w session) <|
    transact lower w .reloadJoining "persist starting session: " (planPut lower session)

/-- What `RenameSession` decides. -/
def planRename (id requested : GoString) (source : SessionNameSource) (s : Store) :
    Except Err (Plan Session) :=
  match s.memory.byID.lookup id with
  | none => .error (err .sessionNotFound)
  | some intent => do
    let current := s.memory.session intent
    let name := SessionLabel.unique lower s.memory.byIntent id requested
    let next ← (current.rename name source).mapError (.wrap "validate session name: ")
    if next.equal current then .ok (.answer current)
    else .ok (.write (s.memory.replaced intent next) none next)

section

variable (next : Session) (s : Store)

/-- `RenameSession`. -/
def Store.renameSession (id requested : GoString) (source : SessionNameSource) :
    Store → Except Err Session × Store :=
  checked (checkContext w.ctx) <|
    transact lower w .reload "persist session name: " (planRename lower id requested source)

/-- The checks that `CompareAndSwap` and `Replace` both make. -/
def checkSwap (what : String) : Except Err Unit := do
  checkContext w.ctx
  (validateSessionValue expected).mapError (.wrap "validate expected session: ")
  (validateSessionValue next).mapError (.wrap "validate next session: ")
  refuse (!sameIdentity expected next)
    (.wrap (": " ++ what ++ " changes immutable session identity") (err .invariantConflict))

/-- The checks of `CompareAndSwap`. -/
def checkCompareAndSwap : Except Err Unit := do
  checkSwap w expected next "compare-and-swap"
  refuse (expected.status ≠ .starting || next.status ≠ .ready && next.status ≠ .awaitingRecovery)
    (.wrap (": unsupported transition " ++ quoted expected.status.text ++ " -> " ++
      quoted next.status.text) (err .invariantConflict))
  recheckContext w.ctx

/-- What `CompareAndSwap` decides. -/
def planCompareAndSwap : Except Err (Plan Unit) :=
  match s.memory.byIntent.lookup expected.intentID with
  | none => .error (err .compareAndSwapConflict)
  | some current =>
    if current.equal next then .ok (.answer ())
    else do
      refuse (!current.equal expected) (err .compareAndSwapConflict)
      .ok (.write (s.memory.replaced next.intentID next) none ())

/-- `CompareAndSwap`. -/
def Store.compareAndSwap : Store → Except Err Unit × Store :=
  checked (checkCompareAndSwap w expected next) <|
    transact lower w .reloadJoining "persist session transition: " (planCompareAndSwap expected next)

/-- The Telegram state of `Replace` when there is work: the card, if there is one, is no longer known
to be empty. -/
def withdrawn (ui : State) (id : GoString) : State :=
  let card := (ui.clone.cardMap.lookup id).getD .zero
  if card.sessionID ≠ [] then
    { ui.clone with
      cards := some (ui.clone.cardMap.insert id { card with emptyCloseEligible := false }) }
  else ui.clone

/-- What `Replace` decides. -/
def planReplace : Except Err (Plan Unit) :=
  match s.memory.byIntent.lookup expected.intentID with
  | none => .error (err .compareAndSwapConflict)
  | some current => do
    refuse (!current.equal expected) (err .compareAndSwapConflict)
    if current.equal next then .ok (.answer ())
    else
      let ui :=
        if hasWorkStatus current.status || hasWorkStatus next.status then
          s.memory.telegramUI.map fun ui => withdrawn ui next.id
        else s.memory.telegramUI
      .ok (.write { s.memory.replaced next.intentID next with telegramUI := ui } none ())

end

/-- `Replace`. -/
def Store.replace (w : World) (expected next : Session) : Store → Except Err Unit × Store :=
  checked (checkSwap w expected next "replace") <|
    transact lower w .keep "persist session replacement: " (planReplace expected next)

/-- An invariant conflict because of another error, whose text is left out. -/
def invariantConflict (_ : Err) : Err := .wrap ": " (err .invariantConflict)

section

variable (candidates : List Session) (requireEmpty : Bool) (s : Store)

/-- What `SetModelPreferences` decides. -/
def planModelPreferences (id model effort : GoString) (s : Store) : Except Err (Plan Unit) :=
  match s.memory.byID.lookup id with
  | none => .error (err .sessionNotFound)
  | some intent => do
    let current := s.memory.session intent
    let next ← (current.withModelPreferences model effort).mapError invariantConflict
    if next.equal current then .ok (.answer ())
    else .ok (.write (s.memory.replaced intent next) none ())

/-- `SetModelPreferences`. -/
def Store.setModelPreferences (id model effort : GoString) : Store → Except Err Unit × Store :=
  checked (do checkContext w.ctx; recheckContext w.ctx) <|
    transact lower w .reload "persist model preferences: " (planModelPreferences id model effort)

/-! ## Writes that are verified -/

/-- The reading that verifies a write. -/
def Store.verify (verifying : String) (accept : Loaded → Except Err Unit) (s : Store) :
    Except Err Unit × Store :=
  match readVerified lower w.rereading s.file with
  | .error e => (.error (.wrap verifying e), s)
  | .ok m =>
    match accept m with
    | .error e => (.error e, s)
    | .ok () => (.ok (), { s with memory := m })

/-- A write that keeps in memory what is read after it. -/
def Store.persistVerified (after : AfterFailure) (what verifying : String) (next : Loaded)
    (accept : Loaded → Except Err Unit) (s : Store) : Except Err Unit × Store :=
  match s.persist w next with
  | (.error e, s) => s.fail lower w after (.wrap what e)
  | (.ok (), s) => s.verify lower w verifying accept

/-- `ImportArchived`, after the reload. -/
def Store.importMerged : Except Err Unit × Store :=
  match ArchiveImport.merge s.memory.byIntent candidates with
  | .error e => (.error (invariantConflict e), s)
  | .ok (_, false) => (.ok (), s)
  | .ok (next, true) =>
    if w.cancelledBeforeWrite then (.error (err .canceled), s)
    else
      s.persistVerified lower w .keep "persist archived import: " "verify archived import: "
        { s.memory with byIntent := next }
        fun m => refuse (!ArchiveImport.equal m.byIntent next)
          (.message "verify archived import: durable state differs")

/-- `ImportArchived`. -/
def Store.importArchived : Except Err Unit × Store :=
  match (do checkContext w.ctx; recheckContext w.ctx) with
  | .error e => (.error e, s)
  | .ok () =>
    match s.reload lower w.reading with
    | .error e => (.error e, s)
    | .ok s => s.importMerged lower w candidates

/-- `Save` of the coordinator checkpoint. The checkpoint is left out: what its checks decide, and
whether it is read again as it was written, are arguments. -/
def Store.saveCheckpoint (decision : Except Err Bool) (confirmed : Except Err Unit) (s : Store) :
    Except Err Unit × Store :=
  match (do checkContext w.ctx; recheckContext w.ctx) with
  | .error e => (.error e, s)
  | .ok () =>
    match s.reload lower w.reading with
    | .error e => (.error e, s)
    | .ok s =>
      match decision with
      | .error e => (.error e, s)
      | .ok false => (.ok (), s)
      | .ok true =>
        s.persistVerified lower w .reloadJoining "persist coordinator checkpoint: "
          "reread coordinator checkpoint: " s.memory fun _ => confirmed

/-! ## Deletions -/

/-- Whether a card is known to be empty. -/
def provenEmpty (ui : State) (id : GoString) : Bool :=
  (ui.cardMap.lookup id).any fun card => card.emptyCloseEligible && card.history.isEmpty

/-- What `deleteProven` decides. -/
def planDelete : Except Err (Plan Bool) :=
  match s.memory.byIntent.lookup expected.intentID with
  | none =>
    if (s.deletedEmpty.lookup expected.id).any fun deleted => deleted.equal expected then
      .ok (.answer true)
    else .error (err .compareAndSwapConflict)
  | some current => do
    refuse (!current.equal expected) (err .compareAndSwapConflict)
    match s.memory.telegramUI with
    | none => .ok (.answer false)
    | some ui =>
      if requireEmpty && !provenEmpty ui expected.id then .ok (.answer false)
      else do
        let sessions := s.memory.byIntent.erase expected.intentID
        let ui := forget s.memory.byID sessions expected.id ui.clone
        ui.validate
        .ok (.write ⟨sessions, s.memory.byID.erase expected.id, some ui⟩ (some expected) true)

/-- `deleteProven`. -/
def Store.deleteProven : Store → Except Err Bool × Store :=
  checked (recheckContext w.ctx) <|
    transact lower w .keep "persist empty session deletion: " (planDelete expected requireEmpty)

end

/-- `DeleteEmptyClosing`. -/
def Store.deleteEmptyClosing : Store → Except Err Bool × Store :=
  checked
    (do
      checkContext w.ctx
      refuse (expected.status ≠ .closing) (.message "empty deletion requires closing session")) <|
    deleteProven lower w expected true

/-- `DeleteEmptyFailedStart`. -/
def Store.deleteEmptyFailedStart : Store → Except Err Bool × Store :=
  checked
    (refuse (expected.status ≠ .awaitingRecovery || expected.recoveryTarget ≠ some .starting ||
        expected.binding.isSome)
      (.message "empty failed-start deletion requires unbound initial recovery")) <|
    deleteProven lower w expected true

/-- `DeleteEmptyAwaitingRecovery`. -/
def Store.deleteEmptyAwaitingRecovery : Store → Except Err Bool × Store :=
  checked
    (refuse (expected.status ≠ .awaitingRecovery)
      (.message "empty recovery deletion requires awaiting recovery")) <|
    deleteProven lower w expected true

/-- `DeleteUnrecoverableAwaitingRecovery`. -/
def Store.deleteUnrecoverableAwaitingRecovery : Store → Except Err Bool × Store :=
  checked
    (refuse (expected.status ≠ .awaitingRecovery)
      (.message "unrecoverable deletion requires awaiting recovery")) <|
    deleteProven lower w expected true

/-! ## The Telegram state -/

/-- A change that `UpdateTelegramUI` is given. It may look at the sessions in memory. -/
abbrev Update := Loaded → State → Except Err State

section

variable (id messageID final item : GoString)

/-- `UpdateTelegramUI`. -/
def Store.updateTelegramUI (update : Update) : Store → Except Err Unit × Store :=
  checked (do checkContext w.ctx; recheckContext w.ctx) <|
    transact lower w .keep "persist Telegram UI state: " fun s => do
      let ui ← update s.memory s.memory.currentUI
      ui.validate.mapError (.wrap "validate Telegram UI state: ")
      .ok (.write { s.memory with telegramUI := some ui } none ())

/-- A text with the `%s` verb. -/
def verbatim (s : GoString) : String := String.ofList (s.map fun b => Char.ofNat b.toNat)

/-- The change of `SetCardCarrier`. -/
def setCardCarrier (chatID messageID : Int) : Update := fun _ ui =>
  let card := (ui.cardMap.lookup id).getD (newCard id)
  let next : Carrier := { chatID, messageID }
  ui.setCard { card with
    carrier := next
    carrierOperation := if card.carrier ≠ next then [] else card.carrierOperation }

/-- The change of `SetCardPage`. -/
def setCardPage (page : Page) : Update := fun _ ui =>
  ui.setCard { (ui.cardMap.lookup id).getD { Card.zero with sessionID := id } with page }

/-- The change of `cardeventhistory.Append`. -/
def appendHistory (kind : HistoryKind) : Update := fun _ ui =>
  let card := { (ui.cardMap.lookup id).getD (newCard id) with emptyCloseEligible := false }
  ui.setCard ((append card item kind).touchEvent now)

/-- The change of `cardeventhistory.InsertTyped`. -/
def insertTyped (promptID item : GoString) (kind : HistoryKind) : Update :=
  fun _ ui =>
    match ui.cardMap.lookup id with
    | none => .error (err .cardUnavailable)
    | some card => do
      let card ← insertWithRoom card promptID item kind
      ui.setCard (card.touchEvent now)

/-- The change of `cardeventhistory.Insert`. -/
def insertEvent (promptID eventID item : GoString) (kind : HistoryKind) : Update :=
  fun _ ui =>
    match ui.cardMap.lookup id with
    | none => .error (err .cardUnavailable)
    | some card => do
      let next ← insertRuntimeEvent digest card promptID eventID item kind
      let next := { next with emptyCloseEligible := false }
      ui.setCard (if next.history.length ≠ card.history.length then next.touchEvent now else next)

/-- Whether `SetCardPrompt` refuses a session. -/
def refusesPrompt (status : SessionStatus) (card : Card) (messageID : GoString) : Bool :=
  status = .closing || status = .archived ||
    status = .awaitingRecovery && !card.historyKeys.contains messageID

/-- The change of `SetCardPrompt`. -/
def setCardPrompt : Update := fun m ui =>
  match m.byID.lookup id with
  | none => .error (err .sessionNotFound)
  | some intent => do
    let status := (m.session intent).status
    refuse (refusesPrompt status ((ui.cardMap.lookup id).getD .zero) messageID)
      (.message ("cannot accept request into " ++ verbatim status.text ++ " session"))
    let card := { (ui.cardMap.lookup id).getD (newCard id) with emptyCloseEligible := false }
    match setPrompt card messageID item with
    | none => .ok ui
    | some card => ui.setCard (card.touchEvent now)

/-- The change of `RestoreAcceptedFinal`. -/
def restoreAccepted : Update := fun _ ui =>
  match ui.cardMap.lookup id with
  | none => .error (err .sessionNotFound)
  | some card => do
    let next ← restoreFinal card messageID final
    let grown := next.history.length ≠ card.history.length ∨
      next.pendingFinalOperations.length ≠ card.pendingFinalOperations.length
    ui.setCard (if grown then next.touchEvent now else next)

/-- The error by which `RestoreAcceptedFinalForSession` knows that the session has changed. -/
def stale : Err := .message "bound final session is stale"

/-- The change of `RestoreAcceptedFinalForSession`. -/
def restoreAcceptedFor : Update :=
  fun m ui =>
    if (m.byIntent.lookup expected.intentID).any fun current => current.equal expected then
      restoreAccepted now expected.id messageID final m ui
    else .error stale

end

/-- A call that changes the Telegram state. -/
inductive Presentation where
  | updateTelegramUI (update : Update)
  | setActiveSession (id : GoString)
  | setSelectedNode (node : GoString)
  /-- `SetNodeActiveSession`, or `SetNodeLastActiveSession` if it does not navigate. -/
  | setNodeActiveSession (node id : GoString) (navigate : Bool)
  | clearNodeActiveSession (node : GoString)
  | setCardCarrier (id : GoString) (chatID messageID : Int)
  | setCardPage (id : GoString) (page : Page)
  /-- `AppendCardTypedHistory`; `AppendCardHistory` appends a plain entry, and
  `AppendCardTechnicalHistory` one of a tool. -/
  | appendCardTypedHistory (id item : GoString) (kind : HistoryKind)
  | insertCardTypedHistoryAfterPrompt (id promptID item : GoString) (kind : HistoryKind)
  | insertCardRuntimeEvent (id promptID eventID item : GoString) (kind : HistoryKind)
  | setCardPrompt (id messageID item : GoString)
  | restoreAcceptedFinal (id messageID final : GoString)
  | restoreAcceptedFinalForSession (expected : Session) (messageID final : GoString)

/-- What a call checks before `UpdateTelegramUI`. -/
def Presentation.check : Presentation → Except Err Unit
  | .updateTelegramUI _ => .ok ()
  | .setActiveSession id => refuse (blank id) (.message "active session id is required")
  | .setSelectedNode node => refuse (blank node) (.message "selected node id is required")
  | .setNodeActiveSession node id _ =>
    refuse (blank node || blank id) (.message "node and active session ids are required")
  | .clearNodeActiveSession node => refuse (blank node) (.message "node id is required")
  | .setCardCarrier id chatID messageID => refuse (id.isEmpty || chatID ≤ 0 || messageID ≤ 0)
    (.message "session and positive card carrier identifiers are required")
  | .setCardPage id page => refuse (id.isEmpty || page.current < 1 || page.total < page.current)
    (.message "valid card page is required")
  | .appendCardTypedHistory id item _ => refuse (id.isEmpty || item.isEmpty)
    (.message "session and history item are required")
  | .insertCardTypedHistoryAfterPrompt id promptID item _ =>
    refuse (id.isEmpty || promptID.isEmpty || item.isEmpty)
      (.message "session, prompt, and history item are required")
  | .insertCardRuntimeEvent _ _ _ _ _ => .ok ()
  | .setCardPrompt id messageID item =>
    refuse (id.isEmpty || blank messageID || messageID != trimSpace messageID || item.isEmpty)
      (.message "session, prompt message, and history item are required")
  | .restoreAcceptedFinal _ _ _ => .ok ()
  | .restoreAcceptedFinalForSession _ _ _ => .ok ()

/-- What a call gives to `UpdateTelegramUI`. -/
def Presentation.update (now : Time) : Presentation → Update
  | .updateTelegramUI update => update
  | .setActiveSession id => fun _ ui => .ok (Storage.setActiveSession id ui)
  | .setSelectedNode node => fun _ ui => .ok (Storage.setSelectedNode node ui)
  | .setNodeActiveSession node id navigate => fun _ ui =>
    .ok (Storage.setNodeActiveSession node id navigate ui)
  | .clearNodeActiveSession node => fun _ ui => .ok (Storage.clearNodeActiveSession node ui)
  | .setCardCarrier id chatID messageID => Storage.setCardCarrier id chatID messageID
  | .setCardPage id page => Storage.setCardPage id page
  | .appendCardTypedHistory id item kind => appendHistory now id item kind
  | .insertCardTypedHistoryAfterPrompt id promptID item kind => insertTyped now id promptID item kind
  | .insertCardRuntimeEvent id promptID eventID item kind =>
    insertEvent digest now id promptID eventID item kind
  | .setCardPrompt id messageID item => Storage.setCardPrompt now id messageID item
  | .restoreAcceptedFinal id messageID final => restoreAccepted now id messageID final
  | .restoreAcceptedFinalForSession expected messageID final =>
    restoreAcceptedFor now expected messageID final

/-- `historyError`. -/
def historyError (e : Err) : Err := if e.is .cardUnavailable then err .sessionNotFound else e

/-- The error that a call returns for the one of `UpdateTelegramUI`. -/
def Presentation.error : Presentation → Err → Err
  | .insertCardTypedHistoryAfterPrompt _ _ _ _, e => historyError e
  | .insertCardRuntimeEvent _ _ _ _ _, e => historyError e
  | _, e => e

/-- A call that changes the Telegram state. -/
def Store.present (p : Presentation) (s : Store) : Except Err Unit × Store :=
  let result := s.checked p.check (updateTelegramUI lower w (p.update digest w.now))
  (result.1.mapError p.error, result.2)

/-! ## Runs -/

/-- An operation of the store. -/
inductive Operation where
  | putStartingIfAbsent (session : Session)
  | renameSession (id requested : GoString) (source : SessionNameSource)
  | compareAndSwap (expected next : Session)
  | replace (expected next : Session)
  | setModelPreferences (id model effort : GoString)
  | importArchived (candidates : List Session)
  | deleteEmptyClosing (expected : Session)
  | deleteEmptyFailedStart (expected : Session)
  | deleteEmptyAwaitingRecovery (expected : Session)
  | deleteUnrecoverableAwaitingRecovery (expected : Session)
  | present (p : Presentation)
  /-- `Load`, `List` and the other readers. -/
  | load
  | saveCheckpoint (decision : Except Err Bool) (confirmed : Except Err Unit)

/-- The store after an operation. -/
def Operation.run (s : Store) : Operation → Store
  | .putStartingIfAbsent session => (s.putStartingIfAbsent lower w session).2
  | .renameSession id requested source => (s.renameSession lower w id requested source).2
  | .compareAndSwap expected next => (s.compareAndSwap lower w expected next).2
  | .replace expected next => (s.replace lower w expected next).2
  | .setModelPreferences id model effort => (s.setModelPreferences lower w id model effort).2
  | .importArchived candidates => (s.importArchived lower w candidates).2
  | .deleteEmptyClosing expected => (s.deleteEmptyClosing lower w expected).2
  | .deleteEmptyFailedStart expected => (s.deleteEmptyFailedStart lower w expected).2
  | .deleteEmptyAwaitingRecovery expected => (s.deleteEmptyAwaitingRecovery lower w expected).2
  | .deleteUnrecoverableAwaitingRecovery expected =>
    (s.deleteUnrecoverableAwaitingRecovery lower w expected).2
  | .present p => (s.present lower digest w p).2
  | .load =>
    (s.checked (checkContext w.ctx) (Store.transact lower w .keep "" fun _ => .ok (.answer ()))).2
  | .saveCheckpoint decision confirmed => (s.saveCheckpoint lower w decision confirmed).2

/-- One event of a run: an operation, or the end of the process and the opening of the file by the
next one. -/
inductive Event where
  | call (op : Operation) (w : World)
  | reopen (reading : Reading)

/-- The store after an event. There is none if the file cannot be opened. -/
def Store.step : Event → Store → Option Store
  | .call op w, s => some (op.run lower digest w s)
  | .reopen reading, s => (openSessionStore lower reading s.file).toOption

end Bria.Storage
