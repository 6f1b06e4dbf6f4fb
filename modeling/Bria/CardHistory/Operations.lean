import Mathlib.Data.List.Sort
import Bria.Go.Slices
import Bria.TelegramState.State

/-!
# Card histories

The operations on the history of a card: `telegramhistory.Append` drops the oldest entry of a full
history, `telegramhistorylimit.EnsureRoomAfterPrompt` chooses what it drops and spares the entries of
final answers that are not delivered yet, `cardeventhistory.InsertRuntimeEvent` and
`cardhistory.RestoreFinal` put entries after those of their prompt. A history is kept in four
slices, of which the three with metadata may be empty. The SHA-256 text of an event key is left open.
-/

namespace Bria.CardHistory

open Go TelegramState

/-- `maxEntries`, in both packages. -/
def maxEntries : Nat := 512

/-! ## `telegramhistory` -/

/-- The latest entries but for one place. -/
def latest {α : Type} (l : List α) : List α := l.drop (l.length - (maxEntries - 1))

variable (card : Card) (messageID promptID item : GoString)

/-- The card after room was made at the end. -/
def trimmed : Card :=
  { card with
    history := latest card.history
    historyKeys := onColumn latest card.historyKeys
    historyKinds := onColumn latest card.historyKinds
    historyTurnKeys := onColumn latest card.historyTurnKeys }

variable (final : GoString) (digest : GoString → GoString) (kind : HistoryKind)

/-- `Append` to a history with room. -/
def appendEntry : Card :=
  let kinds :=
    if kind ≠ .plain then madeColumn card.historyKinds card.history.length .plain
    else card.historyKinds
  { card with
    history := card.history ++ [item]
    historyKeys := onColumn (· ++ [[]]) card.historyKeys
    historyKinds := onColumn (· ++ [kind]) kinds
    historyTurnKeys := onColumn (· ++ [[]]) card.historyTurnKeys }

/-- `Append`. -/
def append : Card :=
  appendEntry (if maxEntries ≤ card.history.length then trimmed card else card) item kind

/-- The card with an entry at an index. -/
def insertEntry (index : Nat) (promptID item : GoString) (kind : HistoryKind) : Card :=
  { card with
    history := insertAt card.history index item
    historyKeys := onColumn (fun keys => insertAt keys index []) card.historyKeys
    historyKinds :=
      if kind ≠ .plain then
        insertAt (madeColumn card.historyKinds card.history.length .plain) index kind
      else onColumn (fun kinds => insertAt kinds index kind) card.historyKinds
    historyTurnKeys :=
      if promptID ≠ [] then
        insertAt (madeColumn card.historyTurnKeys card.history.length []) index promptID
      else onColumn (fun turns => insertAt turns index promptID) card.historyTurnKeys }

/-- The index of the entry that an event of a prompt is put after. -/
def insertionAnchor : Option Nat :=
  (lastIndex promptID card.historyTurnKeys).or (lastIndex promptID card.historyKeys)

/-- The error for a prompt that is not in the history. -/
def anchorUnavailable : Err := .wrap (": " ++ quoted promptID) (err .promptAnchorUnavailable)

/-- `telegramhistory.InsertAfterPrompt`. -/
def insertAfterPrompt : Except Err Card :=
  match insertionAnchor card promptID with
  | none => .error (anchorUnavailable promptID)
  | some index => .ok (insertEntry card (index + 1) promptID item kind)

/-! ## `telegramhistorylimit` -/

/-- `anchorIndex`. -/
def anchorIndex : Option Nat :=
  (card.historyKeys.findIdx? (· == promptID)).or (lastIndex promptID card.historyTurnKeys)

/-- The operation of the final answer to a prompt. -/
def finalOperation : GoString := messageID ++ ofText ":final"

/-- `pendingFinal`. -/
def pendingFinal (turn : GoString) : Bool :=
  card.pendingFinalOperations.any fun operation => turn != [] && operation == finalOperation turn

/-- In which of the three lists of candidates for removal an entry is. -/
inductive Candidate where
  | otherTurn
  | oldPrompt
  | currentTurn
  deriving DecidableEq

/-- The list that `EnsureRoomAfterPrompt` puts an entry into, if any. -/
def candidate (anchor index : Nat) : Option Candidate :=
  let key := card.historyKeys.getD index []
  let kind := card.historyKinds.getD index .plain
  let turn := card.historyTurnKeys.getD index []
  if kind = .prompt ∨ key ≠ [] ∧ turn = [] then
    if index < anchor ∧ key ≠ promptID ∧ pendingFinal card key = false then some .oldPrompt
    else none
  else if kind = .final ∧ pendingFinal card turn = true then none
  else if key = promptID ∨ turn = promptID then
    if index ≠ anchor then some .currentTurn else none
  else some .otherTurn

/-- The candidates, those of other turns first. -/
def candidates (anchor : Nat) : List Nat :=
  let among := fun list => (List.range card.history.length).filter fun index =>
    candidate card promptID anchor index = some list
  among .otherTurn ++ among .oldPrompt ++ among .currentTurn

/-- The card without the entries at some indices. -/
def removeEntries (indices : List Nat) : Card :=
  { card with
    history := removeEach indices card.history
    historyKeys := removeEach indices card.historyKeys
    historyKinds := removeEach indices card.historyKinds
    historyTurnKeys := removeEach indices card.historyTurnKeys }

/-- `EnsureRoomAfterPrompt` of a history that has the anchor. -/
def makeRoom (anchor entries : Nat) : Except Err Card :=
  let need := card.history.length + entries - maxEntries
  if need = 0 then .ok card
  else do
    let found := candidates card promptID anchor
    refuse (found.length < need)
      (.message ("history has only " ++ toString found.length ++ " evictable entries for " ++
        toString need ++ " required"))
    .ok (removeEntries card ((found.take need).insertionSort (· ≤ ·)).reverse)

/-- `EnsureRoomAfterPrompt`. -/
def ensureRoomAfterPrompt (entries : Nat) :
    Except Err Card := do
  refuse card.history.isEmpty (.message "history is unavailable")
  refuse (entries < 1 || maxEntries < entries || maxEntries < card.history.length)
    (.message "invalid history capacity request")
  refuse (misaligned card.historyKeys card.history || misaligned card.historyKinds card.history ||
      misaligned card.historyTurnKeys card.history)
    (.message "history metadata is not aligned")
  match anchorIndex card promptID with
  | none => .error (anchorUnavailable promptID)
  | some anchor => makeRoom card promptID anchor entries

/-- `telegramhistorylimit.InsertAfterPrompt`. -/
def insertWithRoom :
    Except Err Card := do
  let card ← ensureRoomAfterPrompt card promptID 1
  insertAfterPrompt card promptID item kind

/-! ## `cardeventhistory` -/

/-- The kinds of runtime events. -/
def isEventKind : HistoryKind → Bool
  | .commentary | .tool | .question | .thinking => true
  | _ => false

/-- The key of a runtime event. -/
def eventKey (promptID eventID : GoString) : GoString :=
  ofText "runtime-event:" ++ digest (promptID ++ 0 :: eventID)

/-- The card with a key at the last entry of a prompt. -/
def keyLastEvent (key : GoString) : Card :=
  match lastIndex promptID card.historyTurnKeys with
  | some index =>
    { card with historyKeys := (madeColumn card.historyKeys card.history.length []).set index key }
  | none => card

/-- `InsertRuntimeEvent`. The entry that was just put in has the turn key of its prompt. -/
def insertRuntimeEvent (card : Card) (promptID eventID item : GoString) (kind : HistoryKind) :
    Except Err Card := do
  refuse (promptID.isEmpty || eventID.isEmpty || 512 < eventID.length || !validString eventID ||
      item.isEmpty || !isEventKind kind)
    (.message "invalid runtime event identity")
  match card.historyKeys.findIdx? (· == eventKey digest promptID eventID) with
  | some index =>
    refuse (card.history[index]? ≠ some item || card.historyKinds[index]? ≠ some kind ||
        card.historyTurnKeys[index]? ≠ some promptID)
      (.message "runtime event identity conflicts with retained history")
    .ok card
  | none =>
    let card ← insertWithRoom card promptID item kind
    .ok (keyLastEvent card promptID (eventKey digest promptID eventID))

/-! ## `cardhistory` -/

/-- The size of the part at the start of a text: the largest one up to a size that is UTF-8. -/
def validSize (text : GoString) : Nat → Nat
  | 0 => 0
  | size + 1 => if validString (text.take (size + 1)) then size + 1 else validSize text size

/-- The parts of a final answer, of at most 16 KiB each. A text of `n` bytes has at most `n`. -/
def finalParts : Nat → GoString → List GoString
  | 0, _ => []
  | fuel + 1, text =>
    if text.isEmpty then []
    else
      let size := validSize text (min text.length 16384)
      text.take size :: finalParts fuel (text.drop size)

/-- The final answer that is already in a history. -/
def retainedFinal : GoString :=
  (card.historyTurnKeys.mapIdx fun index key =>
    if key = messageID ∧ card.historyKinds[index]? = some .final then card.history.getD index []
    else []).flatten

/-- `RestoreFinal` of an answer that is not in the history. -/
def recordFinal : Except Err Card := do
  let operation := finalOperation messageID
  let alreadyPending := card.pendingFinalOperations.contains operation
  refuse (!alreadyPending && maxEntries ≤ card.pendingFinalOperations.length) (err .finalCapacity)
  let parts := finalParts final.length final
  let card ← (ensureRoomAfterPrompt card messageID parts.length).mapError fun e =>
    if e.is .promptAnchorUnavailable then err .finalAnchor else err .finalCapacity
  let card ← (parts.foldlM (fun card part => insertAfterPrompt card messageID part .final)
    card).mapError fun _ => err .finalAnchor
  .ok { card with
    pendingFinalOperations :=
      if alreadyPending then card.pendingFinalOperations
      else card.pendingFinalsAfter [] ++ [operation] }

/-- `RestoreFinal`. -/
def restoreFinal : Except Err Card := do
  refuse (messageID.isEmpty || trimSpace messageID != messageID || 1024 < messageID.length ||
      !validString messageID || final.isEmpty || !validString final || 32768 < final.length)
    (err .finalInvalid)
  if retainedFinal card messageID ≠ [] then do
    refuse (retainedFinal card messageID ≠ final) (err .finalConflict)
    .ok card
  else recordFinal card messageID final

/-! ## Prompts -/

/-- What `SetCardPrompt` makes of a history that has no entry for the prompt. -/
def appendPrompt : Card :=
  let card := append card item .plain
  let keys := madeColumn card.historyKeys card.history.length []
  { card with historyKeys := keys.set (keys.length - 1) messageID }

/-- What `SetCardPrompt` makes of a history, none if the entry is there. -/
def setPrompt : Option Card :=
  match card.historyKeys.findIdx? (· == messageID) with
  | some index =>
    if card.history[index]? = some item then none
    else some { card with history := card.history.set index item }
  | none => some (appendPrompt card messageID item)

end Bria.CardHistory
