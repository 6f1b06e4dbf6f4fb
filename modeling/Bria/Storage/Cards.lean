import Bria.CardHistory.Entries
import Bria.Storage.Steps

/-!
# Cards that are known to be empty

A card is known to be empty if it is marked so and has no entries. Of all the calls that change the
Telegram state only the insertion of a session marks a card, entries are never all removed, and so
none of these calls makes a card one that is known to be empty (`update_keepsContent`). A call that
puts an entry into a card leaves one that is not (`update_content`).
-/

namespace Bria.Storage

open Go Domain TelegramState CardHistory

variable {ui ui' : State} {card next : Card} {id eventID : GoString} {parts : List GoString}
  {entries : Nat} {p : Presentation}

/-! ## Histories that are not empty -/

variable {promptID item messageID final : GoString} {kind : HistoryKind}

/-- Room is made for at least one entry. -/
theorem ensureRoomAfterPrompt_pos (h : ensureRoomAfterPrompt card promptID entries = .ok next) :
    entries ≠ 0 :=
  (ensureRoomAfterPrompt_eq_ok h).2.1

/-- A history without entries has no answer. -/
theorem retainedFinal_of_history (messageID : GoString) (h : card.history = []) :
    retainedFinal card messageID = [] := by
  unfold retainedFinal
  rw [h, List.flatten_eq_nil_iff]
  intro text htext
  obtain ⟨i, hi, rfl⟩ := List.mem_mapIdx.mp htext
  split
  · exact List.getD_nil
  · rfl

/-! ## Changes of one card -/

/-- Every card is under the id of its session. -/
def Named (ui : State) : Prop :=
  ∀ id card, ui.cardMap.lookup id = some card → card.sessionID = id ∧ id ≠ []

/-- What `Validate` accepts has such cards. -/
theorem named_of_validate (h : ui.validate = .ok ()) : Named ui := by
  obtain ⟨-, cards, hcards, hvalid⟩ := validate_eq_ok.mp h
  intro id card hcard
  rw [State.cardMap, hcards, getD_some] at hcard
  obtain ⟨hid, -⟩ := check_eq_ok.mp (hvalid.card id card hcard)
  have hid := refuse_eq_ok.mp hid
  simp only [or_eq_false_iff, bne_eq_false_iff_eq] at hid
  refine ⟨hid.2, ?_⟩
  rintro rfl
  cases hid.1

/-- A card is known to be empty. -/
theorem provenEmpty_eq_true : provenEmpty ui id ↔ ∃ card, ui.cardMap.lookup id = some card ∧
    card.emptyCloseEligible ∧ card.history = [] := by
  simp [provenEmpty, Option.any_eq_true]

/-- The clone has the same cards. -/
theorem cardMap_clone (ui : State) : ui.clone.cardMap = ui.cardMap := by
  simp only [State.cardMap, State.clone, getD_some]

/-- No card became one that is known to be empty. -/
def KeepsContent (ui ui' : State) : Prop := ∀ id, provenEmpty ui' id → provenEmpty ui id

theorem KeepsContent.of_cards (h : ui'.cardMap = ui.cardMap) : KeepsContent ui ui' := by
  intro id hid
  rwa [provenEmpty, h] at hid

theorem revised_eq_ok {previous stored : Card} (h : Card.revised previous card = .ok stored) :
    stored.sessionID = card.sessionID ∧ stored.emptyCloseEligible = card.emptyCloseEligible ∧
      stored.history = card.history := by
  unfold Card.revised at h
  split at h
  · replace h := of_check h
    obtain rfl := ok.inj h
    exact ⟨rfl, rfl, rfl⟩
  obtain rfl := ok.inj h
  exact ⟨rfl, rfl, rfl⟩

theorem setCard_eq_ok (h : ui.setCard card = .ok ui') : ∃ stored,
    stored.emptyCloseEligible = card.emptyCloseEligible ∧ stored.history = card.history ∧
      ui'.cardMap = ui.cardMap.insert card.sessionID stored := by
  replace h := of_check h
  obtain ⟨stored, hstored, h⟩ := bind_eq_ok.mp h
  replace h := of_check h
  obtain rfl := ok.inj h
  obtain ⟨hid, heligible, hhistory⟩ := revised_eq_ok hstored
  exact ⟨stored, heligible, hhistory, by rw [← hid]; rfl⟩

/-- `SetCard` of a card that has content, or whose stored one is known to be empty. -/
theorem setCard_keepsContent (h : ui.setCard card = .ok ui')
    (hcard : card.emptyCloseEligible → card.history = [] →
      provenEmpty ui card.sessionID) : KeepsContent ui ui' := by
  obtain ⟨stored, heligible, hhistory, hcards⟩ := setCard_eq_ok h
  intro id hid
  obtain ⟨card', hlookup, heligible', hhistory'⟩ := provenEmpty_eq_true.mp hid
  rw [hcards] at hlookup
  rcases of_lookup_insert hlookup with ⟨rfl, rfl⟩ | hlookup
  · exact hcard (heligible ▸ heligible') (hhistory ▸ hhistory')
  · exact provenEmpty_eq_true.mpr ⟨card', hlookup, heligible', hhistory'⟩

/-- `SetCard` of a card with content. -/
theorem setCard_content (h : ui.setCard card = .ok ui')
    (hcard : card.emptyCloseEligible = false ∨ card.history ≠ []) :
    KeepsContent ui ui' ∧ provenEmpty ui' card.sessionID = false := by
  obtain ⟨stored, heligible, hhistory, hcards⟩ := setCard_eq_ok h
  refine ⟨setCard_keepsContent h fun htrue hnil => ?_, ?_⟩
  · rcases hcard with hfalse | hne
    · rw [htrue] at hfalse
      cases hfalse
    · exact absurd hnil hne
  rw [provenEmpty, hcards, AList.lookup_insert, any_some, heligible, hhistory]
  rcases hcard with hfalse | hne
  · rw [hfalse, Bool.false_and]
  · simp [hne]

theorem touchEvent_eq (card : Card) (now : Time) :
    (card.touchEvent now).sessionID = card.sessionID ∧
      (card.touchEvent now).emptyCloseEligible = card.emptyCloseEligible ∧
      (card.touchEvent now).history = card.history := by
  unfold Card.touchEvent
  split
  · split <;> exact ⟨rfl, rfl, rfl⟩
  · exact ⟨rfl, rfl, rfl⟩

/-! ## The calls -/

variable {m : Loaded} {now : Time} {digest : GoString → GoString}

/-- The card that a call starts from, if there is one, is the one of the session. -/
theorem sessionID_getD (hnamed : Named ui) (other : Card) (hother : other.sessionID = id) :
    ((ui.cardMap.lookup id).getD other).sessionID = id := by
  cases hlookup : ui.cardMap.lookup id with
  | none => exact hother
  | some card => exact (hnamed id card hlookup).1

/-- A card that is made for a session is not known to be empty. -/
theorem provenEmpty_of_getD (other : Card) (hother : other.emptyCloseEligible = false)
    (heligible : ((ui.cardMap.lookup id).getD other).emptyCloseEligible)
    (hhistory : ((ui.cardMap.lookup id).getD other).history = []) : provenEmpty ui id := by
  cases hlookup : ui.cardMap.lookup id with
  | none =>
    rw [hlookup, Option.getD_none, hother] at heligible
    cases heligible
  | some card =>
    rw [hlookup, getD_some] at heligible hhistory
    exact provenEmpty_eq_true.mpr ⟨card, hlookup, heligible, hhistory⟩

/-- A new card is not known to be empty. -/
theorem withCard_keepsContent (s : State) (hcards : ui'.cardMap = withCard s id) :
    KeepsContent s ui' := by
  intro other hother
  obtain ⟨card, hlookup, heligible, hhistory⟩ := provenEmpty_eq_true.mp hother
  rw [hcards, withCard] at hlookup
  split at hlookup
  · exact provenEmpty_eq_true.mpr ⟨card, hlookup, heligible, hhistory⟩
  rcases of_lookup_insert hlookup with ⟨-, rfl⟩ | hlookup
  · cases heligible
  · exact provenEmpty_eq_true.mpr ⟨card, hlookup, heligible, hhistory⟩

/-- A change of the history of a card. -/
structure SameCard (card next : Card) : Prop where
  sessionID : next.sessionID = card.sessionID
  eligible : next.emptyCloseEligible = card.emptyCloseEligible

theorem SameCard.trans {last : Card} (h : SameCard card next) (h' : SameCard next last) :
    SameCard card last :=
  ⟨h'.sessionID.trans h.sessionID, h'.eligible.trans h.eligible⟩

theorem trimmed_sameCard (card : Card) : SameCard card (trimmed card) := by
  constructor <;> simp only [trimmed]

theorem appendEntry_sameCard (card : Card) (item : GoString) (kind : HistoryKind) :
    SameCard card (appendEntry card item kind) := ⟨rfl, rfl⟩

theorem append_sameCard (card : Card) (item : GoString) (kind : HistoryKind) :
    SameCard card (append card item kind) := by
  unfold append
  by_cases hfull : maxEntries ≤ card.history.length
  · rw [if_pos hfull]
    exact (trimmed_sameCard card).trans (appendEntry_sameCard (trimmed card) item kind)
  rw [if_neg hfull]
  exact appendEntry_sameCard card item kind

/-- `telegramhistory.InsertAfterPrompt` puts an entry into the history. -/
theorem insertAfterPrompt_filled (h : insertAfterPrompt card promptID item kind = .ok next) :
    SameCard card next ∧ next.history ≠ [] := by
  unfold insertAfterPrompt at h
  split at h
  · cases h
  obtain rfl := ok.inj h
  exact ⟨⟨rfl, rfl⟩, by simp [insertEntry, insertAt]⟩

theorem ensureRoomAfterPrompt_sameCard
    (h : ensureRoomAfterPrompt card promptID entries = .ok next) : SameCard card next := by
  obtain ⟨-, -, -, indices, -, rfl, -⟩ := ensureRoomAfterPrompt_eq_ok h
  exact ⟨rfl, rfl⟩

/-- `telegramhistorylimit.InsertAfterPrompt` puts an entry into the history. -/
theorem insertWithRoom_filled (h : insertWithRoom card promptID item kind = .ok next) :
    SameCard card next ∧ next.history ≠ [] := by
  obtain ⟨roomy, hroom, h⟩ := bind_eq_ok.mp h
  obtain ⟨hsame, hhistory⟩ := insertAfterPrompt_filled h
  exact ⟨(ensureRoomAfterPrompt_sameCard hroom).trans hsame, hhistory⟩

theorem insertRuntimeEvent_sameCard
    (h : insertRuntimeEvent digest card promptID eventID item kind = .ok next) :
    SameCard card next := by
  replace h := of_check h
  split at h
  · replace h := of_check h
    obtain rfl := ok.inj h
    exact ⟨rfl, rfl⟩
  obtain ⟨inserted, hinserted, h⟩ := bind_eq_ok.mp h
  obtain rfl := ok.inj h
  refine (insertWithRoom_filled hinserted).1.trans ?_
  unfold keyLastEvent
  split <;> exact ⟨rfl, rfl⟩

/-- The parts of an answer are put into the history. -/
theorem foldlM_insertAfterPrompt_filled
    (h : parts.foldlM (fun card part => insertAfterPrompt card messageID part .final) card =
      .ok next) : SameCard card next ∧ (parts ≠ [] ∨ card.history ≠ [] → next.history ≠ []) := by
  induction parts generalizing card with
  | nil =>
    obtain rfl := ok.inj h
    exact ⟨⟨rfl, rfl⟩, fun hcard => hcard.resolve_left fun hnil => hnil rfl⟩
  | cons part rest ih =>
    obtain ⟨card', hcard', h⟩ := bind_eq_ok.mp h
    obtain ⟨hsame, hhistory⟩ := insertAfterPrompt_filled hcard'
    obtain ⟨hrest, hleft⟩ := ih h
    exact ⟨hsame.trans hrest, fun _ => hleft (.inr hhistory)⟩

/-- After `RestoreFinal` the answer is in the history. -/
theorem restoreFinal_filled (h : restoreFinal card messageID final = .ok next) :
    SameCard card next ∧ next.history ≠ [] := by
  replace h := of_check h
  split at h
  · rename_i hretained
    replace h := of_check h
    obtain rfl := ok.inj h
    exact ⟨⟨rfl, rfl⟩, fun hnil => hretained (retainedFinal_of_history messageID hnil)⟩
  replace h := of_check h
  obtain ⟨roomy, hroom, h⟩ := bind_eq_ok.mp h
  obtain ⟨filled, hfilled, h⟩ := bind_eq_ok.mp h
  obtain rfl := ok.inj h
  have hroom := mapError_eq_ok.mp hroom
  obtain ⟨hparts, hhistory⟩ := foldlM_insertAfterPrompt_filled (mapError_eq_ok.mp hfilled)
  refine ⟨(ensureRoomAfterPrompt_sameCard hroom).trans ⟨hparts.sessionID, hparts.eligible⟩,
    hhistory (.inl fun hnil => ?_)⟩
  exact ensureRoomAfterPrompt_pos hroom (by rw [hnil]; rfl)

/-- `SetCardPrompt` changes the history, or finds the entry in it. -/
theorem setPrompt_sameCard (card : Card) (messageID item : GoString) :
    (∀ next, setPrompt card messageID item = some next → SameCard card next) ∧
      (setPrompt card messageID item = none → card.history ≠ []) := by
  unfold setPrompt
  split
  · split
    · rename_i index _ hitem
      refine ⟨fun next h => (nomatch h), fun _ hnil => ?_⟩
      rw [hnil, List.getElem?_nil] at hitem
      cases hitem
    refine ⟨fun next h => ?_, fun h => (nomatch h)⟩
    obtain rfl := some.inj h
    exact ⟨rfl, rfl⟩
  refine ⟨fun next h => ?_, fun h => (nomatch h)⟩
  obtain rfl := some.inj h
  have happend := append_sameCard card item .plain
  exact ⟨happend.sessionID, happend.eligible⟩

/-! ## The calls -/

/-- The session whose card a call puts an entry into. -/
def Presentation.content : Presentation → Option GoString
  | .appendCardTypedHistory id _ _ => some id
  | .insertCardTypedHistoryAfterPrompt id _ _ _ => some id
  | .insertCardRuntimeEvent id _ _ _ _ => some id
  | .setCardPrompt id _ _ => some id
  | .restoreAcceptedFinal id _ _ => some id
  | .restoreAcceptedFinalForSession expected _ _ => some expected.id
  | _ => none

/-- What the calls that put an entry into a card do. -/
def Fills (ui : State) (id : GoString) (ui' : State) : Prop :=
  KeepsContent ui ui' ∧ provenEmpty ui' id = false

theorem fills_of_setCard (h : ui.setCard card = .ok ui') (hid : card.sessionID = id)
    (hcard : card.emptyCloseEligible = false ∨ card.history ≠ []) : Fills ui id ui' := by
  rw [← hid]
  exact setCard_content h hcard

theorem fills_of_touched (h : ui.setCard (card.touchEvent now) = .ok ui')
    (hid : card.sessionID = id)
    (hcard : card.emptyCloseEligible = false ∨ card.history ≠ []) : Fills ui id ui' := by
  obtain ⟨hsession, heligible, hhistory⟩ := touchEvent_eq card now
  exact fills_of_setCard h (hsession.trans hid) (by rwa [heligible, hhistory])

section

variable (hnamed : Named ui)
include hnamed

theorem appendHistory_fills (h : appendHistory now id item kind m ui = .ok ui') :
    Fills ui id ui' := by
  have hsame := append_sameCard
    { (ui.cardMap.lookup id).getD (newCard id) with emptyCloseEligible := false } item kind
  refine fills_of_touched h ?_ (.inl hsame.eligible)
  rw [hsame.sessionID]
  exact sessionID_getD hnamed (newCard id) rfl

theorem insertTyped_fills (h : insertTyped now id promptID item kind m ui = .ok ui') :
    Fills ui id ui' := by
  unfold insertTyped at h
  split at h
  · cases h
  rename_i card hcard
  obtain ⟨next, hnext, h⟩ := bind_eq_ok.mp h
  obtain ⟨hsame, hhistory⟩ := insertWithRoom_filled hnext
  refine fills_of_touched h ?_ (.inr hhistory)
  rw [hsame.sessionID]
  exact (hnamed id card hcard).1

theorem insertEvent_fills
    (h : insertEvent digest now id promptID eventID item kind m ui = .ok ui') :
    Fills ui id ui' := by
  unfold insertEvent at h
  split at h
  · cases h
  rename_i card hcard
  obtain ⟨next, hnext, h⟩ := bind_eq_ok.mp h
  have hid : next.sessionID = id := by
    rw [(insertRuntimeEvent_sameCard hnext).sessionID]
    exact (hnamed id card hcard).1
  dsimp only at h
  split at h
  · exact fills_of_touched h hid (.inl rfl)
  · exact fills_of_setCard h hid (.inl rfl)

theorem restoreAccepted_fills (h : restoreAccepted now id messageID final m ui = .ok ui') :
    Fills ui id ui' := by
  unfold restoreAccepted at h
  split at h
  · cases h
  rename_i card hcard
  obtain ⟨next, hnext, h⟩ := bind_eq_ok.mp h
  obtain ⟨hsame, hhistory⟩ := restoreFinal_filled hnext
  have hid : next.sessionID = id := by
    rw [hsame.sessionID]
    exact (hnamed id card hcard).1
  dsimp only at h
  split at h
  · exact fills_of_touched h hid (.inr hhistory)
  · exact fills_of_setCard h hid (.inr hhistory)

theorem setCardPrompt_fills (h : setCardPrompt now id messageID item m ui = .ok ui') :
    Fills ui id ui' := by
  unfold setCardPrompt at h
  split at h
  · cases h
  replace h := of_check h
  dsimp only at h
  obtain ⟨hsome, hnone⟩ := setPrompt_sameCard
    { (ui.cardMap.lookup id).getD (newCard id) with emptyCloseEligible := false } messageID item
  split at h
  · -- The entry is there, so the history is not empty.
    rename_i hfound
    obtain rfl := ok.inj h
    refine ⟨.of_cards rfl, eq_false_iff.mpr fun hempty => hnone hfound ?_⟩
    obtain ⟨card, hlookup, -, hhistory⟩ := provenEmpty_eq_true.mp hempty
    show ((ui.cardMap.lookup id).getD (newCard id)).history = []
    rw [hlookup]
    exact hhistory
  rename_i next hnext
  have hsame := hsome next hnext
  refine fills_of_touched h ?_ (.inl hsame.eligible)
  rw [hsame.sessionID]
  exact sessionID_getD hnamed (newCard id) rfl

/-- A call that puts an entry into a card leaves one that is not known to be empty. -/
theorem update_content (hcontent : p.content = some id) (h : p.update digest now m ui = .ok ui') :
    Fills ui id ui' := by
  cases p with
  | appendCardTypedHistory other item kind =>
    obtain rfl := some.inj hcontent
    exact appendHistory_fills (m := m) hnamed h
  | insertCardTypedHistoryAfterPrompt other promptID item kind =>
    obtain rfl := some.inj hcontent
    exact insertTyped_fills (m := m) hnamed h
  | insertCardRuntimeEvent other promptID eventID item kind =>
    obtain rfl := some.inj hcontent
    exact insertEvent_fills (m := m) hnamed h
  | setCardPrompt other messageID item =>
    obtain rfl := some.inj hcontent
    exact setCardPrompt_fills (m := m) hnamed h
  | restoreAcceptedFinal other messageID final =>
    obtain rfl := some.inj hcontent
    exact restoreAccepted_fills (m := m) hnamed h
  | restoreAcceptedFinalForSession expected messageID final =>
    obtain rfl := some.inj hcontent
    have h : restoreAcceptedFor now expected messageID final m ui = .ok ui' := h
    unfold restoreAcceptedFor at h
    split at h
    · exact restoreAccepted_fills (m := m) hnamed h
    · cases h
  | _ => cases hcontent

end

/-- The update that a caller gives to `UpdateTelegramUI` makes no card one that is known to be empty.
The other calls have updates of their own. -/
def Presentation.Careful : Presentation → Prop
  | .updateTelegramUI update => ∀ m ui ui', update m ui = .ok ui' → KeepsContent ui ui'
  | _ => True

/-- No call makes a card one that is known to be empty. -/
theorem update_keepsContent (hcareful : p.Careful) (hnamed : Named ui)
    (h : p.update digest now m ui = .ok ui') : KeepsContent ui ui' := by
  cases hcontent : p.content with
  | some id => exact (update_content hnamed hcontent h).1
  | none =>
    cases p with
    | updateTelegramUI update => exact hcareful m ui ui' h
    | setActiveSession id | setNodeActiveSession node id navigate =>
      obtain rfl := ok.inj h
      exact withCard_keepsContent ui rfl
    | setSelectedNode node | clearNodeActiveSession node =>
      obtain rfl := ok.inj h
      exact .of_cards rfl
    | setCardCarrier id chatID messageID =>
      refine setCard_keepsContent h fun heligible hhistory => ?_
      have hid := sessionID_getD hnamed (newCard id) rfl
      exact hid ▸ provenEmpty_of_getD (newCard id) rfl heligible hhistory
    | setCardPage id page =>
      refine setCard_keepsContent h fun heligible hhistory => ?_
      have hid := sessionID_getD hnamed { Card.zero with sessionID := id } rfl
      exact hid ▸ provenEmpty_of_getD { Card.zero with sessionID := id } rfl heligible hhistory
    | _ => cases hcontent

end Bria.Storage
