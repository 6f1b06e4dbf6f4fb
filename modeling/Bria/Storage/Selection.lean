import Bria.Domain.Session
import Bria.TelegramState.State

/-!
# Selections

The changes that the session store makes to the selections of the Telegram UI state: what the
methods from `SetActiveSession` to `ClearNodeActiveSession` pass to `UpdateTelegramUI`, and what the
deletion of a session removes. The active session stands in the state twice, for its node and as the
one that is shown, and every active or recent session must have a card (`selection_valid`).
-/

namespace Bria.Storage

open Go Domain TelegramState

/-! ## Changes -/

section

variable (node id : GoString) (s : State)

/-- `promoteRecentSession`. -/
def promoteRecentSession (history : List GoString) (id : GoString) : List GoString :=
  (id :: history.filter fun candidate => candidate != id).take 512

/-- The cards, with a new one for a session that has none. -/
def withCard (id : GoString) : Map GoString Card :=
  if (s.cardMap.lookup id).isSome then s.cardMap else s.cardMap.insert id (newCard id)

/-- The change of `SetActiveSession`. -/
def setActiveSession : State :=
  { s with
    activeSession := id
    activeSessions :=
      if s.selectedNode ≠ [] then s.activeSessions.insert s.selectedNode id else s.activeSessions
    recentSessions :=
      if s.selectedNode ≠ [] then
        s.recentSessions.insert s.selectedNode
          (promoteRecentSession ((s.recentSessions.lookup s.selectedNode).getD []) id)
      else s.recentSessions
    cards := some (withCard s id) }

/-- The change of `SetSelectedNode`. -/
def setSelectedNode : State :=
  { s with selectedNode := node, activeSession := (s.activeSessions.lookup node).getD [] }

/-- The change of `SetNodeActiveSession`, which navigates, and of `SetNodeLastActiveSession`, which
does not. -/
def setNodeActiveSession (navigate : Bool) (s : State) : State :=
  let selected := if navigate then node else s.selectedNode
  { s with
    selectedNode := selected
    activeSession := if selected = node then id else s.activeSession
    activeSessions := s.activeSessions.insert node id
    recentSessions := s.recentSessions.insert node
      (promoteRecentSession ((s.recentSessions.lookup node).getD []) id)
    cards := some (withCard s id) }

/-- The change of `ClearNodeActiveSession`. -/
def clearNodeActiveSession : State :=
  { s with
    activeSessions := s.activeSessions.erase node
    activeSession := if s.selectedNode = node then [] else s.activeSession }

end

section

variable (byID : Map GoString GoString) (sessions : Map GoString Session)

/-- The recent session that becomes active when the active one is deleted: the first that is stored
and not archived. -/
def successor (recent : List GoString) : Option GoString :=
  recent.find? fun id => match byID.lookup id with
    | some intent => decide ((sessions.lookup intent).map Session.status ≠ some .archived)
    | none => false

/-- The change of `deleteProven`, with the sessions that are left. -/
def forget (id : GoString) (s : State) : State :=
  let recentSessions := s.recentSessions.update fun _ history =>
    some (history.filter fun candidate => candidate != id)
  let activeSessions := s.activeSessions.update fun node active =>
    if active ≠ id then some active
    else successor byID sessions ((recentSessions.lookup node).getD [])
  { s with
    cards := some (s.cardMap.erase id)
    recentSessions
    activeSessions
    activeSession :=
      if s.selectedNode ≠ [] then (activeSessions.lookup s.selectedNode).getD []
      else if s.activeSession = id then [] else s.activeSession }

end

/-! ## Validity -/

variable {s : State} {cards : Map GoString Card} {node id other n : GoString}
  {history : List GoString}

/-- The promoted session and what was there before it. -/
theorem mem_promoteRecentSession (h : other ∈ promoteRecentSession history id) :
    other = id ∨ other ∈ history := by
  rcases mem_cons.mp (List.mem_of_mem_take h) with rfl | h
  · exact .inl rfl
  · exact .inr (mem_filter.mp h).1

/-- A promotion repeats nothing. -/
theorem nodup_promoteRecentSession (h : history.Nodup) :
    (promoteRecentSession history id).Nodup := by
  refine (List.take_sublist _ _).nodup (nodup_cons.mpr ⟨?_, h.filter _⟩)
  simp

/-- What has a card still has one. -/
theorem withCard_isSome (hcards : s.cards = some cards)
    (h : other = id ∨ (cards.lookup other).isSome) : ((withCard s id).lookup other).isSome := by
  have hmap : s.cardMap = cards := by rw [State.cardMap, hcards, getD_some]
  unfold withCard
  rw [hmap]
  split
  · rename_i hid
    rcases h with rfl | h
    · exact hid
    · exact h
  rw [lookup_insert]
  split
  · rfl
  rename_i hother
  exact h.resolve_left hother

section

variable (hs : ValidWith s cards) (hcards : s.cards = some cards)
include hs hcards

/-- The cards stay valid. -/
theorem withCard_valid (hid : blank id = false) {card : Card}
    (h : (withCard s id).lookup other = some card) : validateCard ⟨other, card⟩ = .ok () := by
  have hmap : s.cardMap = cards := by rw [State.cardMap, hcards, getD_some]
  unfold withCard at h
  rw [hmap] at h
  split at h
  · exact hs.card other card h
  rcases of_lookup_insert h with ⟨rfl, rfl⟩ | h
  · exact validateCard_newCard hid
  · exact hs.card other card h

/-- The entries of a node after it got an active session. -/
theorem activate_valid (hnode : CanonicalNode node) (hid : blank id = false) :
    (∀ n i, (s.activeSessions.insert node id).lookup n = some i →
      CanonicalNode n ∧ blank i = false ∧ ((withCard s id).lookup i).isSome) ∧
    ∀ n ids, (s.recentSessions.insert node
        (promoteRecentSession ((s.recentSessions.lookup node).getD []) id)).lookup n = some ids →
      badNode n = false ∧ ids.length ≤ 512 ∧ ids.Nodup ∧
        ∀ i ∈ ids, blank i = false ∧ ((withCard s id).lookup i).isSome := by
  constructor
  · intro n i h
    rcases of_lookup_insert h with ⟨rfl, rfl⟩ | h
    · exact ⟨hnode, hid, withCard_isSome hcards (.inl rfl)⟩
    obtain ⟨hn, hi, hcard⟩ := hs.active n i h
    exact ⟨hn, hi, withCard_isSome hcards (.inr hcard)⟩
  intro n ids h
  rcases of_lookup_insert h with ⟨rfl, rfl⟩ | h
  · -- The history before is one that was checked, or there was none.
    have hold : ((s.recentSessions.lookup n).getD []).Nodup ∧
        ∀ i ∈ (s.recentSessions.lookup n).getD [], blank i = false ∧ (cards.lookup i).isSome := by
      cases hlookup : s.recentSessions.lookup n with
      | none => simp
      | some history =>
        obtain ⟨-, -, hnodup, hmem⟩ := hs.recent n history hlookup
        exact ⟨hnodup, hmem⟩
    refine ⟨hnode.good, ?_, nodup_promoteRecentSession hold.1, fun i hi => ?_⟩
    · exact List.length_take_le _ _
    rcases mem_promoteRecentSession hi with rfl | hi
    · exact ⟨hid, withCard_isSome hcards (.inl rfl)⟩
    · exact ⟨(hold.2 i hi).1, withCard_isSome hcards (.inr (hold.2 i hi).2)⟩
  · obtain ⟨hn, hlength, hnodup, hmem⟩ := hs.recent n ids h
    exact ⟨hn, hlength, hnodup,
      fun i hi => ⟨(hmem i hi).1, withCard_isSome hcards (.inr (hmem i hi).2)⟩⟩

theorem setActiveSession_valid (hid : blank id = false) :
    ValidWith (setActiveSession id s) (withCard s id) := by
  have hkeeps : ∀ i, (cards.lookup i).isSome → ((withCard s id).lookup i).isSome :=
    fun i hi => withCard_isSome hcards (.inr hi)
  have hshown : ((withCard s id).lookup id).isSome := withCard_isSome hcards (.inl rfl)
  by_cases hselected : s.selectedNode = []
  · refine ⟨fun n i h => ?_, fun n ids h => ?_, fun h => absurd hselected h,
      fun i card => withCard_valid hs hcards hid, fun _ => hshown⟩
    · simp only [setActiveSession, hselected, ne_eq, not_true_eq_false, if_false] at h
      obtain ⟨hn, hi, hcard⟩ := hs.active n i h
      exact ⟨hn, hi, hkeeps i hcard⟩
    simp only [setActiveSession, hselected, ne_eq, not_true_eq_false, if_false] at h
    obtain ⟨hn, hlength, hnodup, hmem⟩ := hs.recent n ids h
    exact ⟨hn, hlength, hnodup, fun i hi => ⟨(hmem i hi).1, hkeeps i (hmem i hi).2⟩⟩
  obtain ⟨hnode, -⟩ := hs.selected hselected
  obtain ⟨hactive, hrecent⟩ := activate_valid hs hcards hnode hid
  refine ⟨?_, ?_, fun _ => ⟨hnode, ?_⟩, fun i card => withCard_valid hs hcards hid, fun _ => hshown⟩
  · simpa only [setActiveSession, ne_eq, hselected, not_false_eq_true, if_true] using hactive
  · simpa only [setActiveSession, ne_eq, hselected, not_false_eq_true, if_true] using hrecent
  simp only [setActiveSession, ne_eq, hselected, not_false_eq_true, if_true,
    AList.lookup_insert, getD_some]

/-- `SetNodeActiveSession` and `SetNodeLastActiveSession` keep the state valid. -/
theorem setNodeActiveSession_valid (hnode : CanonicalNode node) (hid : blank id = false)
    (navigate : Bool) : ValidWith (setNodeActiveSession node id navigate s) (withCard s id) := by
  obtain ⟨hactive, hrecent⟩ := activate_valid hs hcards hnode hid
  refine ⟨hactive, hrecent, fun hset => ?_, fun i card => withCard_valid hs hcards hid,
    fun hset => ?_⟩
  · simp only [setNodeActiveSession] at hset ⊢
    by_cases hselected : (if navigate then node else s.selectedNode) = node
    · rw [hselected]
      exact ⟨hnode, by simp⟩
    -- Another node is selected, so the call does not navigate.
    have hstays : (if navigate then node else s.selectedNode) = s.selectedNode := by
      cases navigate with
      | true => exact absurd rfl hselected
      | false => rfl
    rw [hstays] at hset hselected ⊢
    obtain ⟨hcanonical, hprojection⟩ := hs.selected hset
    rw [if_neg hselected, lookup_insert, if_neg hselected]
    exact ⟨hcanonical, hprojection⟩
  · simp only [setNodeActiveSession] at hset ⊢
    by_cases hselected : (if navigate then node else s.selectedNode) = node
    · rw [if_pos hselected]
      exact withCard_isSome hcards (.inl rfl)
    rw [if_neg hselected] at hset ⊢
    exact withCard_isSome hcards (.inr (hs.shown hset))

end

theorem setSelectedNode_valid (hs : ValidWith s cards) (hnode : CanonicalNode node) :
    ValidWith (setSelectedNode node s) cards := by
  refine ⟨hs.active, hs.recent, fun _ => ⟨hnode, rfl⟩, hs.card, fun hset => ?_⟩
  simp only [setSelectedNode] at hset ⊢
  cases hlookup : s.activeSessions.lookup node with
  | none => simp [hlookup] at hset
  | some i => exact (hs.active node i hlookup).2.2

theorem clearNodeActiveSession_valid (hs : ValidWith s cards) :
    ValidWith (clearNodeActiveSession node s) cards := by
  refine ⟨fun n i h => ?_, hs.recent, fun hset => ?_, hs.card, fun hset => ?_⟩
  · exact hs.active n i (of_lookup_erase h).2
  · obtain ⟨hcanonical, hprojection⟩ := hs.selected hset
    refine ⟨hcanonical, ?_⟩
    simp only [clearNodeActiveSession, lookup_erase]
    split
    · rfl
    · exact hprojection
  simp only [clearNodeActiveSession] at hset ⊢
  by_cases hselected : s.selectedNode = node
  · rw [if_pos hselected] at hset
    exact absurd rfl hset
  rw [if_neg hselected] at hset ⊢
  exact hs.shown hset

/-! ## Deletion -/

section Forget

variable {byID : Map GoString GoString} {sessions : Map GoString Session}

/-- What is recent after a deletion was recent before, and is not the deleted session. -/
theorem forget_recent {ids : List GoString}
    (h : (forget byID sessions id s).recentSessions.lookup n = some ids) :
    ∃ history, s.recentSessions.lookup n = some history ∧
      ids = history.filter fun candidate => candidate != id := by
  simp only [forget, lookup_update, bind_eq_some_iff, some.injEq] at h
  obtain ⟨history, hlookup, rfl⟩ := h
  exact ⟨history, hlookup, rfl⟩

/-- What is active after a deletion was active or recent before, and is not the deleted session. -/
theorem forget_active {i : GoString}
    (h : (forget byID sessions id s).activeSessions.lookup n = some i) :
    i ≠ id ∧ (∃ active, s.activeSessions.lookup n = some active) ∧
      (s.activeSessions.lookup n = some i ∨
        ∃ history, s.recentSessions.lookup n = some history ∧ i ∈ history) := by
  simp only [forget, lookup_update, bind_eq_some_iff] at h
  obtain ⟨active, hactive, h⟩ := h
  split at h
  · rename_i hother
    obtain rfl := some.inj h
    exact ⟨hother, ⟨active, hactive⟩, .inl hactive⟩
  have hmem := mem_of_find?_eq_some h
  cases hlookup : s.recentSessions.lookup n with
  | none => simp [hlookup] at hmem
  | some history =>
    simp only [hlookup, bind_some, getD_some, mem_filter, bne_iff_ne] at hmem
    exact ⟨hmem.2, ⟨active, hactive⟩, .inr ⟨history, rfl, hmem.1⟩⟩

/-- With a selected node, the session that is shown is the active one of the node. -/
theorem forget_selected (h : s.selectedNode ≠ []) : (forget byID sessions id s).activeSession =
    ((forget byID sessions id s).activeSessions.lookup s.selectedNode).getD [] := by
  simp only [forget, ne_eq, h, not_false_eq_true, if_true]

/-- The session that is shown after a deletion is not the deleted one. -/
theorem forget_shown (hid : id ≠ []) : (forget byID sessions id s).activeSession ≠ id := by
  by_cases hselected : s.selectedNode = []
  · simp only [forget, hselected, ne_eq, not_true_eq_false, if_false]
    split
    · exact fun h => hid h.symm
    · assumption
  rw [forget_selected hselected]
  cases hlookup : (forget byID sessions id s).activeSessions.lookup s.selectedNode with
  | none => exact fun h => hid h.symm
  | some i => exact (forget_active hlookup).1

theorem forget_valid (hs : ValidWith s cards) (hid : id ≠ []) :
    ValidWith (forget byID sessions id s) (cards.erase id) := by
  have hkeeps : ∀ i, i ≠ id → (cards.lookup i).isSome → ((cards.erase id).lookup i).isSome := by
    intro i hi hcard
    rwa [lookup_erase, if_neg hi]
  have hactive : ∀ n i, (forget byID sessions id s).activeSessions.lookup n = some i →
      CanonicalNode n ∧ blank i = false ∧ ((cards.erase id).lookup i).isSome := by
    intro n i h
    obtain ⟨hother, ⟨active, hnode⟩, hbefore⟩ := forget_active h
    refine ⟨(hs.active n active hnode).1, ?_⟩
    rcases hbefore with hi | ⟨history, hhistory, hi⟩
    · obtain ⟨-, hi, hcard⟩ := hs.active n i hi
      exact ⟨hi, hkeeps i hother hcard⟩
    obtain ⟨hi, hcard⟩ := (hs.recent n history hhistory).2.2.2 i hi
    exact ⟨hi, hkeeps i hother hcard⟩
  refine ⟨hactive, fun n ids h => ?_, fun hset => ?_, fun i card h => ?_, fun hset => ?_⟩
  · obtain ⟨history, hhistory, rfl⟩ := forget_recent h
    obtain ⟨hn, hlength, hnodup, hmem⟩ := hs.recent n history hhistory
    refine ⟨hn, Nat.le_trans (List.length_filter_le _ _) hlength, hnodup.filter _, fun i hi => ?_⟩
    obtain ⟨hi, hother⟩ := mem_filter.mp hi
    exact ⟨(hmem i hi).1, hkeeps i (by simpa using hother) (hmem i hi).2⟩
  · exact ⟨(hs.selected hset).1, (forget_selected (s := s) hset).symm⟩
  · exact hs.card i card (of_lookup_erase h).2
  have hother : (forget byID sessions id s).activeSession ≠ id := forget_shown hid
  by_cases hselected : s.selectedNode = []
  · have hshown : (forget byID sessions id s).activeSession = s.activeSession := by
      simp only [forget, hselected, ne_eq, not_true_eq_false, if_false] at hset ⊢
      split
      · rename_i hsame
        rw [if_pos hsame] at hset
        exact absurd rfl hset
      · rfl
    rw [hshown] at hset hother ⊢
    exact hkeeps _ hother (hs.shown hset)
  · rw [forget_selected hselected] at hset ⊢
    cases hlookup : (forget byID sessions id s).activeSessions.lookup s.selectedNode with
    | none => simp [hlookup] at hset
    | some i => exact (hactive _ i hlookup).2.2

end Forget

/-- A state without any reference to a session. -/
structure Unreferenced (id : GoString) (s : State) : Prop where
  card : s.cardMap.lookup id = none
  recent : ∀ node ids, s.recentSessions.lookup node = some ids → id ∉ ids
  active : ∀ node, s.activeSessions.lookup node ≠ some id
  shown : s.activeSession ≠ id

/-- A deletion leaves no reference to the session. -/
theorem forget_unreferenced (byID : Map GoString GoString) (sessions : Map GoString Session)
    (s : State) (hid : id ≠ []) : Unreferenced id (forget byID sessions id s) := by
  refine ⟨?_, fun n ids h => ?_, fun n h => ?_, forget_shown hid⟩
  · simp only [State.cardMap, forget, getD_some, AList.lookup_erase]
  · obtain ⟨history, -, rfl⟩ := forget_recent h
    simp
  · exact (forget_active h).1 rfl

/-- From a state that `Validate` accepts, every change of the selections leads to one that it
accepts, and so does the deletion of a session, whatever sessions are stored; afterwards the deleted
session has no card and is not recent, active or shown. -/
theorem selection_valid (hs : s.validate = .ok ()) (hnode : CanonicalNode node)
    (hid : blank id = false) :
    (setActiveSession id s).validate = .ok () ∧ (setSelectedNode node s).validate = .ok () ∧
      (∀ navigate, (setNodeActiveSession node id navigate s).validate = .ok ()) ∧
      (clearNodeActiveSession node s).validate = .ok () ∧
      ∀ byID sessions, (forget byID sessions id s).validate = .ok () ∧
        Unreferenced id (forget byID sessions id s) := by
  obtain ⟨hversion, cards, hcards, hvalid⟩ := validate_eq_ok.mp hs
  have hne : id ≠ [] := by
    rintro rfl
    cases hid
  have hmap : s.cardMap = cards := by rw [State.cardMap, hcards, getD_some]
  refine ⟨?_, ?_, fun navigate => ?_, ?_, fun byID sessions =>
    ⟨?_, forget_unreferenced byID sessions s hne⟩⟩
  · exact validate_eq_ok.mpr ⟨hversion, _, rfl, setActiveSession_valid hvalid hcards hid⟩
  · exact validate_eq_ok.mpr ⟨hversion, cards, hcards, setSelectedNode_valid hvalid hnode⟩
  · exact validate_eq_ok.mpr
      ⟨hversion, _, rfl, setNodeActiveSession_valid hvalid hcards hnode hid navigate⟩
  · exact validate_eq_ok.mpr ⟨hversion, cards, hcards, clearNodeActiveSession_valid hvalid⟩
  refine validate_eq_ok.mpr ⟨hversion, s.cardMap.erase id, rfl, ?_⟩
  rw [hmap]
  exact forget_valid hvalid hne

/-- A state with one node, on which two sessions were active. -/
def twoSessions : State :=
  setNodeActiveSession (ofText "n") (ofText "b") true
    (setNodeActiveSession (ofText "n") (ofText "a") true .new)

/-- The second of them is deleted. -/
theorem twoSessions_valid :
    twoSessions.validate = .ok () ∧
      (forget ∅ ∅ (ofText "b") twoSessions).validate = .ok () ∧
      Unreferenced (ofText "b") (forget ∅ ∅ (ofText "b") twoSessions) := by
  have hvalid : twoSessions.validate = .ok () := rfl
  have hnode : CanonicalNode (ofText "n") := ⟨rfl, rfl⟩
  exact ⟨hvalid, (selection_valid hvalid hnode rfl).2.2.2.2 ∅ ∅⟩

end Bria.Storage
