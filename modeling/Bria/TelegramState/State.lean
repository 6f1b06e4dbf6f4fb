import Bria.Errors
import Bria.Go.Map

/-!
# The Telegram UI state

The state of `telegramstate/state.go`: the selected node, the active session of each node, the
recently active ones, and a card for each session, with the checks of `Validate`. The `Cards` map may
be nil, which `Validate` refuses; the other maps are as good as empty when they are nil.
-/

namespace Bria.TelegramState

open Go

/-! ## Values -/

/-- `FormatVersion`. -/
def formatVersion : Int := 1

/-- `maxPages`. -/
def maxPages : Int := 512

/-- `maxAnchor`. -/
def maxAnchor : Nat := 1024

/-- `maxNodeID`. -/
def maxNodeID : Nat := 256

/-- `Carrier`. -/
structure Carrier where
  chatID : Int := 0
  messageID : Int := 0
  deriving DecidableEq

/-- `Page`. -/
structure Page where
  (current total : Int)
  anchor : GoString := []
  followLatest : Bool
  deriving DecidableEq

/-- The kind of a history entry. The empty text is `plain`. -/
inductive HistoryKind where
  | plain
  | tool
  | thinking
  | final
  | prompt
  | commentary
  | question
  | other (text : GoString)
  deriving DecidableEq

/-- `Card`. -/
structure Card where
  emptyCloseEligible : Bool := false
  sessionID : GoString
  carrier : Carrier := {}
  carrierRevision : Nat := 0
  carrierOperation : GoString := []
  lastPresentationOperation : GoString := []
  lastEventUnixNano : Int := 0
  page : Page
  optionsExpanded : Bool := false
  history : List GoString := []
  historyKeys : List GoString := []
  historyTurnKeys : List GoString := []
  historyKinds : List HistoryKind := []
  pendingFinalOperations : List GoString := []
  deriving DecidableEq

/-- `State`. -/
structure State where
  version : Int := formatVersion
  selectedNode : GoString := []
  activeSession : GoString := []
  activeSessions : Map GoString GoString := ∅
  recentSessions : Map GoString (List GoString) := ∅
  screenEnabled : Bool := false
  cards : Option (Map GoString Card) := some ∅

/-- The zero `Card`. -/
def Card.zero : Card :=
  { sessionID := [], page := { current := 0, total := 0, followLatest := false } }

/-- The card that a session gets when it has none: the first of one page. -/
def newCard (id : GoString) : Card :=
  { sessionID := id, page := { current := 1, total := 1, followLatest := true } }

section

variable (s : State) (card : Card)

/-- `TouchEvent`. -/
def Card.touchEvent (at_ : Time) : Card :=
  if at_.unixNano ≤ card.lastEventUnixNano then
    if card.lastEventUnixNano = 0x7FFFFFFFFFFFFFFF then card
    else { card with lastEventUnixNano := card.lastEventUnixNano + 1 }
  else { card with lastEventUnixNano := at_.unixNano }

/-- `PendingFinalsAfter`. -/
def Card.pendingFinalsAfter (operationID : GoString) : List GoString :=
  if operationID = [] then card.pendingFinalOperations
  else card.pendingFinalOperations.filter fun operation => operation != operationID

/-- `New`. -/
def State.new : State := {}

/-- `Clone`. The clone has a `Cards` map also if there was none. -/
def State.clone : State := { s with cards := some (s.cards.getD ∅) }

/-- The `Cards` map for reading. -/
def State.cardMap : Map GoString Card := s.cards.getD ∅

/-! ## Checks -/

/-- A loop that refuses what occurs a second time. Each element is checked before and after that. -/
def eachOnce (before after : GoString → Except Err Unit) (duplicate : Err) :
    List GoString → List GoString → Except Err Unit
  | _, [] => .ok ()
  | seen, value :: rest => do
    before value
    refuse (seen.contains value) duplicate
    after value
    eachOnce before after duplicate (value :: seen) rest

/-- Whether a node identity is refused whether or not it is UTF-8. -/
def badNode (node : GoString) : Bool :=
  trimSpace node != node || node.isEmpty || maxNodeID < node.length

/-- `Validate` of an active session. -/
def validateActive (cards : Map GoString Card) (entry : Σ _ : GoString, GoString) :
    Except Err Unit := do
  refuse (badNode entry.1 || !validString entry.1)
    (.message "active-session node identity is invalid")
  refuse (blank entry.2) (.message ("active session for node " ++ quoted entry.1 ++ " is invalid"))
  refuse (cards.lookup entry.2).isNone
    (.message ("active session " ++ quoted entry.2 ++ " for node " ++ quoted entry.1 ++
      " has no card"))

/-- `Validate` of the recent sessions of a node. -/
def validateRecent (cards : Map GoString Card) (entry : Σ _ : GoString, List GoString) :
    Except Err Unit := do
  refuse (badNode entry.1 || 512 < entry.2.length)
    (.message "recent-session node identity or history is invalid")
  eachOnce (fun id => refuse (blank id) (.message "recent session identity is invalid"))
    (fun id => refuse (cards.lookup id).isNone
      (.message ("recent session " ++ quoted id ++ " for node " ++ quoted entry.1 ++
        " has no card")))
    (.message "recent session identity is duplicated") [] entry.2

/-- `Validate` of the selected node. -/
def State.validateSelected : Except Err Unit :=
  if s.selectedNode = [] then .ok ()
  else do
    refuse (trimSpace s.selectedNode != s.selectedNode || maxNodeID < s.selectedNode.length ||
        !validString s.selectedNode)
      (.message "selected node identity is invalid")
    refuse ((s.activeSessions.lookup s.selectedNode).getD [] != s.activeSession)
      (.message "selected node active session does not match global projection")

/-- `Page.validate`. -/
def Page.validate (p : Page) : Except Err Unit := do
  refuse (p.current < 1 || p.total < 1 || p.total < p.current || maxPages < p.total)
    (.message "page must be within 1..512")
  refuse (maxAnchor < p.anchor.length || !validString p.anchor) (.message "anchor is invalid")

/-- `Carrier.validate`. -/
def Carrier.validate (c : Carrier) : Except Err Unit :=
  if c.chatID = 0 ∧ c.messageID = 0 then .ok ()
  else refuse (c.chatID ≤ 0 || c.messageID ≤ 0)
    (.message "chat and message IDs must be both zero or positive")

/-- A text that may not name an operation. -/
def badOperation (operation : GoString) : Bool :=
  trimSpace operation != operation || maxAnchor + 6 < operation.length || !validString operation

/-- Whether metadata is there, but not for every entry. -/
def misaligned {α : Type} (metadata : List α) (history : List GoString) : Bool :=
  !metadata.isEmpty && metadata.length != history.length

/-- `Validate` of the texts of a history. -/
def Card.validateHistory (id : GoString) : Except Err Unit := do
  refuse (misaligned card.historyKeys card.history)
    (.message ("card " ++ quoted id ++ " history keys are not aligned"))
  refuse (misaligned card.historyKinds card.history)
    (.message ("card " ++ quoted id ++ " history kinds are not aligned"))
  refuse (misaligned card.historyTurnKeys card.history)
    (.message ("card " ++ quoted id ++ " history turn keys are not aligned"))
  eachOnce
    (fun key => refuse (trimSpace key != key || maxAnchor < key.length || !validString key)
      (.message ("card " ++ quoted id ++ " history key is invalid")))
    (fun _ => .ok ()) (.message ("card " ++ quoted id ++ " history key is duplicated")) []
    (card.historyKeys.filter fun key => !key.isEmpty)
  forM card.history fun item => refuse (item.isEmpty || !validString item || 16384 < item.length)
    (.message ("card " ++ quoted id ++ " history item is invalid"))
  forM card.historyKinds fun kind => match kind with
    | .other _ => .error (.message ("card " ++ quoted id ++ " history kind is invalid"))
    | _ => .ok ()

/-- `Validate` of a card. -/
def validateCard (entry : Σ _ : GoString, Card) : Except Err Unit := do
  refuse (blank entry.1 || entry.2.sessionID != entry.1)
    (.message "card session identity is invalid")
  entry.2.page.validate.mapError (.wrap ("card " ++ quoted entry.1 ++ " page: "))
  entry.2.carrier.validate.mapError (.wrap ("card " ++ quoted entry.1 ++ " carrier: "))
  forM [entry.2.carrierOperation, entry.2.lastPresentationOperation] fun operation =>
    refuse (badOperation operation || operation.any fun b => b == 0 || b == 13 || b == 10)
      (.message "presentation operation is invalid")
  refuse (entry.2.lastEventUnixNano < 0) (.message "last card event time is invalid")
  refuse (512 < entry.2.history.length)
    (.message ("card " ++ quoted entry.1 ++ " history is too long"))
  refuse (512 < entry.2.pendingFinalOperations.length)
    (.message "pending final operations exceed capacity")
  eachOnce
    (fun operation => refuse (operation.isEmpty || badOperation operation)
      (.message "pending final operation is invalid"))
    (fun _ => .ok ()) (.message "pending final operation is duplicated") []
    entry.2.pendingFinalOperations
  entry.2.validateHistory entry.1

/-- `Validate` of a state with a `Cards` map. -/
def State.validateWith (cards : Map GoString Card) : Except Err Unit := do
  forM s.activeSessions.entries (validateActive cards)
  forM s.recentSessions.entries (validateRecent cards)
  s.validateSelected
  forM cards.entries validateCard
  refuse (!s.activeSession.isEmpty && (cards.lookup s.activeSession).isNone)
    (.message ("active session " ++ quoted s.activeSession ++ " has no card"))

/-- `Validate`. -/
def State.validate : Except Err Unit := do
  refuse (s.version ≠ formatVersion)
    (.message ("unsupported Telegram UI state version " ++ toString s.version))
  match s.cards with
  | none => .error (.message "cards map is required")
  | some cards => s.validateWith cards

/-! ## Cards -/

/-- The revision and the owner that `SetCard` gives to a card. -/
def Card.revised (previous card : Card) : Except Err Card :=
  if previous.carrier ≠ card.carrier then do
    refuse (previous.carrierRevision = maxUint64) (.message "card carrier revision exhausted")
    .ok { card with carrierRevision := previous.carrierRevision + 1 }
  else .ok { card with
    carrierRevision := previous.carrierRevision
    carrierOperation :=
      if previous.carrierOperation ≠ [] then previous.carrierOperation else card.carrierOperation }

/-- `SetCard`. -/
def State.setCard : Except Err State := do
  refuse (blank card.sessionID) (.message "card session id is required")
  let card ← Card.revised ((s.cardMap.lookup card.sessionID).getD .zero) card
  let alone : State :=
    { version := s.version, cards := some ((∅ : Map GoString Card).insert card.sessionID card) }
  alone.validate
  .ok { s with cards := some (s.cardMap.insert card.sessionID card) }

end

/-! ## What `Validate` accepts -/

theorem eachOnce_eq_ok {before after : GoString → Except Err Unit} {duplicate : Err}
    {seen values : List GoString} :
    eachOnce before after duplicate seen values = .ok () ↔
      (∀ value ∈ values, before value = .ok () ∧ after value = .ok () ∧ value ∉ seen) ∧
        values.Nodup := by
  induction values generalizing seen with
  | nil => simp [eachOnce]
  | cons value rest ih =>
    rw [forall_mem_cons, nodup_cons]
    simp only [eachOnce, check_eq_ok, refuse_eq_ok, ih, contains_eq_mem, decide_eq_false_iff_not]
    constructor
    · rintro ⟨hbefore, hseen, hafter, hrest, hnodup⟩
      refine ⟨⟨⟨hbefore, hafter, hseen⟩, fun other hother => ?_⟩, fun hmem => ?_, hnodup⟩
      · obtain ⟨hb, ha, hnew⟩ := hrest other hother
        exact ⟨hb, ha, fun hmem => hnew (mem_cons_of_mem value hmem)⟩
      · exact (hrest value hmem).2.2 mem_cons_self
    rintro ⟨⟨⟨hbefore, hafter, hseen⟩, hrest⟩, hfresh, hnodup⟩
    refine ⟨hbefore, hseen, hafter, fun other hother => ?_, hnodup⟩
    obtain ⟨hb, ha, hnew⟩ := hrest other hother
    refine ⟨hb, ha, fun hmem => ?_⟩
    rcases mem_cons.mp hmem with rfl | hmem
    · exact hfresh hother
    · exact hnew hmem

/-- A node that may have active sessions. -/
structure CanonicalNode (node : GoString) : Prop where
  good : badNode node = false
  utf8 : validString node

/-- A state that `Validate` accepts, with its cards. -/
structure ValidWith (s : State) (cards : Map GoString Card) : Prop where
  active : ∀ node id, s.activeSessions.lookup node = some id →
    CanonicalNode node ∧ blank id = false ∧ (cards.lookup id).isSome
  recent : ∀ node ids, s.recentSessions.lookup node = some ids →
    badNode node = false ∧ ids.length ≤ 512 ∧ ids.Nodup ∧
      ∀ id ∈ ids, blank id = false ∧ (cards.lookup id).isSome
  selected : s.selectedNode ≠ [] → CanonicalNode s.selectedNode ∧
    (s.activeSessions.lookup s.selectedNode).getD [] = s.activeSession
  card : ∀ id card, cards.lookup id = some card → validateCard ⟨id, card⟩ = .ok ()
  shown : s.activeSession ≠ [] → (cards.lookup s.activeSession).isSome

theorem validateSelected_eq_ok {s : State} :
    s.validateSelected = .ok () ↔ (s.selectedNode ≠ [] → CanonicalNode s.selectedNode ∧
      (s.activeSessions.lookup s.selectedNode).getD [] = s.activeSession) := by
  unfold State.validateSelected
  split
  · rename_i hnone
    simp [hnone]
  rename_i hsome
  simp only [check_eq_ok, refuse_eq_ok, or_eq_false_iff, bne_eq_false_iff_eq,
    not_eq_false', ne_eq, hsome, not_false_eq_true, forall_const]
  have hgood : CanonicalNode s.selectedNode ↔ (trimSpace s.selectedNode = s.selectedNode ∧
      decide (maxNodeID < s.selectedNode.length) = false) ∧ validString s.selectedNode := by
    refine ⟨fun h => ?_, fun h => ⟨?_, h.2⟩⟩
    · have hgood := h.good
      simp only [badNode, or_eq_false_iff, bne_eq_false_iff_eq] at hgood
      exact ⟨⟨hgood.1.1, hgood.2⟩, h.utf8⟩
    have hempty : s.selectedNode.isEmpty = false := by simpa using hsome
    simp only [badNode, or_eq_false_iff, bne_eq_false_iff_eq]
    exact ⟨⟨h.1.1, hempty⟩, h.1.2⟩
  rw [hgood]

variable {cards : Map GoString Card} {node id : GoString}

theorem validateActive_eq_ok :
    validateActive cards ⟨node, id⟩ = .ok () ↔
      CanonicalNode node ∧ blank id = false ∧ (cards.lookup id).isSome := by
  simp only [validateActive, check_eq_ok, refuse_eq_ok, or_eq_false_iff, not_eq_false']
  constructor
  · rintro ⟨⟨hgood, hutf8⟩, hid, hcard⟩
    exact ⟨⟨hgood, hutf8⟩, hid, by simpa using hcard⟩
  rintro ⟨hnode, hid, hcard⟩
  exact ⟨⟨hnode.good, hnode.utf8⟩, hid, by simpa using hcard⟩

/-- What `Validate` accepts of the recent sessions of a node. -/
theorem validateRecent_eq_ok {ids : List GoString} :
    validateRecent cards ⟨node, ids⟩ = .ok () ↔ badNode node = false ∧ ids.length ≤ 512 ∧
      ids.Nodup ∧ ∀ id ∈ ids, blank id = false ∧ (cards.lookup id).isSome := by
  simp only [validateRecent, check_eq_ok, refuse_eq_ok, or_eq_false_iff, eachOnce_eq_ok,
    decide_eq_false_iff_not, Nat.not_lt, not_mem_nil, not_false_eq_true, and_true]
  constructor
  · rintro ⟨⟨hgood, hlength⟩, hids, hnodup⟩
    exact ⟨hgood, hlength, hnodup, fun id hid => ⟨(hids id hid).1, by simpa using (hids id hid).2⟩⟩
  rintro ⟨hgood, hlength, hnodup, hids⟩
  exact ⟨⟨hgood, hlength⟩, fun id hid => ⟨(hids id hid).1, by simpa using (hids id hid).2⟩, hnodup⟩

theorem validate_eq_ok {s : State} :
    s.validate = .ok () ↔
      s.version = formatVersion ∧ ∃ cards, s.cards = some cards ∧ ValidWith s cards := by
  unfold State.validate
  rw [check_eq_ok, refuse_eq_ok, decide_eq_false_iff_not, not_not]
  refine and_congr_right fun _ => ?_
  rcases hcards : s.cards with _ | cards
  · simp
  simp only [some.injEq, exists_eq_left', State.validateWith, check_eq_ok,
    refuse_eq_ok, Map.forM_entries_eq_ok, validateActive_eq_ok, validateRecent_eq_ok,
    validateSelected_eq_ok]
  constructor
  · rintro ⟨hactive, hrecent, hselected, hcard, hshown⟩
    refine ⟨hactive, hrecent, hselected, hcard, fun hset => ?_⟩
    simpa [hset] using hshown
  rintro ⟨hactive, hrecent, hselected, hcard, hshown⟩
  refine ⟨hactive, hrecent, hselected, hcard, ?_⟩
  by_cases hset : s.activeSession = []
  · simp [hset]
  · simpa [hset] using hshown hset

theorem validateCard_newCard (hid : blank id = false) : validateCard ⟨id, newCard id⟩ = .ok () := by
  simp [validateCard, newCard, Page.validate, Carrier.validate, Card.validateHistory, eachOnce,
    misaligned, badOperation, hid, Except.mapError, refuse, bind, Except.bind, maxPages, maxAnchor,
    trimSpace, trimLeft, validString, validFrom]
  rfl

end Bria.TelegramState
