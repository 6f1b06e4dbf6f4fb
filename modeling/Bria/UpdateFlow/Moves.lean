import Bria.Base.Table
import Bria.UpdateFlow.Service

/-!
# What the rollout machine does

Every operation of the rollout machine leaves the rollout alone, moves the current node one step on,
or ends the work on it (`Move`). A state whose rollout has moved passes the checks of `validateState`
again (`Move.valid`), and the nodes before the current one are still updated and those after it pending
(`Move.order`). So does a state with a staging operation that the flow has made
(`withOperation_valid`).
-/

namespace Bria.UpdateFlow

open Go Update Rollout NodeState

variable {sum256 : GoString → Vector UInt8 32} {state : State} {r r' : Rollout} {next s : NodeState}
  {nodes l m : List Node} {i : Nat} {α β : Type} {operation : StageOperation}

/-! ## Moves -/

/-- The steps of the work on a node. -/
def follows : NodeState → NodeState → Bool
  | .pending, .installing => true
  | .installing, .awaitingHealth => true
  | .installing, .rollbackPending => true
  | .awaitingHealth, .rollbackPending => true
  | .rollbackPending, .rollingBack => true
  | .rollingBack, .awaitingRollbackHealth => true
  | _, _ => false

/-- The node is the current one. -/
abbrev AtNode (r : Rollout) (node : Node) : Prop := r.orderedNodes[r.currentIndex]? = some node

/-- What an operation does to the current node, the status and the index. -/
inductive NodeMove (version : GoString) (node : Node) :
    RolloutStatus → Node → RolloutStatus → Bool → Prop where
  /-- A step on. -/
  | next (next : NodeState) (hfollows : follows node.state next) :
      NodeMove version node .running { node with state := next } .running false
  /-- The node is not online. -/
  | block (hfrom : node.state = .pending ∨ node.state = .rollbackPending) :
      NodeMove version node .running { node with blockedFrom := node.state, state := .blocked }
        .stopped false
  /-- The node is updated. -/
  | update (hfrom : node.state = .awaitingHealth) :
      NodeMove version node .running { node with state := .updated, currentVersion := version }
        .running true
  /-- The node is rolled back. -/
  | rolledBack (hfrom : node.state = .awaitingRollbackHealth) :
      NodeMove version node .running { node with state := .rolledBack } .stopped false
  /-- The node is not rolled back. -/
  | failed (hfrom : node.state = .awaitingRollbackHealth) :
      NodeMove version node .running { node with state := .rollbackFailed } .rollbackFailed false
  /-- The node is online again. -/
  | resume (hfrom : node.state = .blocked)
      (hblocked : node.blockedFrom = .pending ∨ node.blockedFrom = .rollbackPending) :
      NodeMove version node .stopped
        { node with state := node.blockedFrom, blockedFrom := .other [], availability := .online }
        .running false

/-- A move of the rollout. After an update the index is the next one, and the rollout is completed if
there is none. -/
structure Moves (r r' : Rollout) (node node' : Node) (status : RolloutStatus) (updated : Bool) :
    Prop where
  current : r.orderedNodes[r.currentIndex]? = some node
  kind : NodeMove r.targetVersion node r.rolloutState node' status updated
  version : r'.targetVersion = r.targetVersion
  nodes : r'.orderedNodes = r.orderedNodes.set r.currentIndex node'
  index : r'.currentIndex = if updated then r.currentIndex + 1 else r.currentIndex
  state : r'.rolloutState =
    if updated && r.currentIndex + 1 = r.orderedNodes.length then .completed else status

/-- Some move of the rollout. -/
def Move (r r' : Rollout) : Prop := ∃ node node' status updated, Moves r r' node node' status updated

variable {node : Node}

theorem current_eq_some {status : RolloutStatus} (h : r.current status = some node) :
    r.rolloutState = status ∧ r.orderedNodes[r.currentIndex]? = some node := by
  unfold current at h
  split at h
  · exact ⟨‹_›, h⟩
  · cases h

variable {nodeID : GoString}

theorem currentNode_eq_some (h : r.currentNode nodeID = some node) :
    r.rolloutState = .running ∧ r.orderedNodes[r.currentIndex]? = some node :=
  current_eq_some (filter_eq_some_iff.mp h).1

variable {node' : Node} {before after : RolloutStatus}

/-- A move that is not an update. -/
theorem Move.of_kind (hstatus : r.rolloutState = before) (hnode : AtNode r node)
    (hkind : NodeMove r.targetVersion node before node' after false) :
    Move r { r.setCurrent node' with rolloutState := after } := by
  subst hstatus
  exact ⟨node, node', after, false, hnode, hkind, rfl, rfl, rfl, rfl⟩

/-- A step of the current node, after which the work on it goes on. -/
def Steps (r r' : Rollout) : Prop :=
  ∃ node next, r.rolloutState = .running ∧ r.orderedNodes[r.currentIndex]? = some node ∧
    follows node.state next ∧ r' = r.setCurrent { node with state := next }

theorem Steps.move (h : Steps r r') : Move r r' := by
  obtain ⟨node, next, hstatus, hnode, hfollows, rfl⟩ := h
  have hmove := Move.of_kind hstatus hnode (NodeMove.next next hfollows)
  rwa [← hstatus] at hmove

/-- A branch of `NextAction`: a step without an error, or a move with one. -/
theorem issue_move (hnode : r.current .running = some node)
    (hstate : node.state = .pending ∨ node.state = .rollbackPending)
    (hfollows : follows node.state next) :
    Move r (r.issue node next).2 ∧ ((r.issue node next).1 = none → Steps r (r.issue node next).2) := by
  obtain ⟨hstatus, hcurrent⟩ := current_eq_some hnode
  unfold issue
  split
  · have hsteps : Steps r (r.setCurrent { node with state := next }) :=
      ⟨node, next, hstatus, hcurrent, hfollows, rfl⟩
    exact ⟨hsteps.move, fun _ => hsteps⟩
  · exact ⟨.of_kind hstatus hcurrent (.block hstate), fun h => by cases h⟩

/-- `NextAction` at a pending node, or one whose rollback is pending. -/
theorem nextAction_move (hstatus : r.rolloutState = .running) (hnode : AtNode r node)
    (hstate : node.state = .pending ∨ node.state = .rollbackPending) :
    Move r r.nextAction.2 ∧ (r.nextAction.1 = none → Steps r r.nextAction.2) := by
  have hcurrent : r.current .running = some node := by rw [current, if_pos hstatus, hnode]
  unfold nextAction
  rw [hcurrent]
  rcases hstate with h | h
  · simp only [h]
    exact issue_move hcurrent (.inl h) (by rw [h]; rfl)
  simp only [h]
  exact issue_move hcurrent (.inr h) (by rw [h]; rfl)

theorem recordApplied_steps (h : r.recordApplied nodeID = (none, r')) : Steps r r' := by
  unfold recordApplied at h
  split at h
  · cases h
  rename_i node hcurrent
  obtain ⟨hstatus, hnode⟩ := currentNode_eq_some hcurrent
  split at h
  iterate 2
    rename_i hstate
    obtain rfl := (Prod.mk.inj h).2
    exact ⟨node, _, hstatus, hnode, by rw [hstate]; rfl, rfl⟩
  cases h

theorem recordApplyFailure_steps (h : r.recordApplyFailure nodeID = (none, r')) : Steps r r' := by
  unfold recordApplyFailure at h
  split at h
  · cases h
  rename_i node hcurrent
  obtain ⟨hstatus, hnode⟩ := currentNode_eq_some hcurrent
  split at h
  · rename_i hstate
    obtain rfl := (Prod.mk.inj h).2
    exact ⟨node, _, hstatus, hnode, by rw [hstate]; rfl, rfl⟩
  · cases h
  · cases h

/-- `RecordHealth`. A receipt for another node leaves the rollout alone. -/
theorem recordHealth_move (r : Rollout) (receipt : HealthReceipt) :
    (r.recordHealth receipt).2 = r ∨ Move r (r.recordHealth receipt).2 := by
  unfold recordHealth
  split
  · exact .inl rfl
  rename_i node hcurrent
  obtain ⟨hstatus, hnode⟩ := currentNode_eq_some hcurrent
  split
  · rename_i hstate
    split
    · right
      have hkind : NodeMove r.targetVersion node r.rolloutState
          { node with state := .updated, currentVersion := r.targetVersion } .running true :=
        by rw [hstatus]; exact .update hstate
      refine ⟨node, _, _, _, hnode, hkind, rfl, rfl, rfl, ?_⟩
      simp only [Rollout.advance, Rollout.setCurrent, length_set, hstatus, Bool.true_and,
        decide_eq_true_eq]
    · exact .inr (Steps.move ⟨node, _, hstatus, hnode, by rw [hstate]; rfl, rfl⟩)
  · rename_i hstate
    split
    · exact .inr (.of_kind hstatus hnode (.rolledBack hstate))
    · exact .inr (.of_kind hstatus hnode (.failed hstate))
  · exact .inl rfl

/-- An error of `RecordHealth` leaves the rollout alone if the receipt is for another node. Otherwise
it is a step where the health of the node is awaited, and a failure of the rollback where its health
after a rollback is. -/
theorem recordHealth_error {receipt : HealthReceipt} (hstatus : r.rolloutState = .running)
    (hnode : AtNode r node) (herror : (r.recordHealth receipt).1.isSome) :
    (r.recordHealth receipt).2 = r ∧ receipt.nodeID ≠ node.id ∨
      (node.state = .awaitingHealth → Steps r (r.recordHealth receipt).2) ∧
      (node.state = .awaitingRollbackHealth →
        (r.recordHealth receipt).2.rolloutState = .rollbackFailed) := by
  have hcurrent : r.current .running = some node := by rw [current, if_pos hstatus, hnode]
  unfold recordHealth currentNode at herror ⊢
  rw [hcurrent] at herror ⊢
  by_cases hid : node.id = receipt.nodeID
  · simp only [Option.filter_some, hid, decide_true, if_true] at herror ⊢
    refine .inr ⟨fun hstate => ?_, fun hstate => ?_⟩
    all_goals
      simp only [hstate] at herror ⊢
      split
      · rw [if_pos ‹_›] at herror
        cases herror
    · exact ⟨node, .rollbackPending, hstatus, hnode, by rw [hstate]; rfl, by rw [hid]⟩
    · rfl
  simp only [Option.filter_some, hid, decide_false, false_eq_true, if_false]
  exact .inl ⟨trivial, Ne.symm hid⟩

theorem nodup_of_validIDs {seen : List GoString} (h : validIDs nodes seen) :
    (nodes.map (·.id)).Nodup ∧ ∀ node ∈ nodes, node.id ∉ seen := by
  induction nodes generalizing seen with
  | nil => simp
  | cons node rest ih =>
    simp only [validIDs, and_eq_true, Bool.not_eq_true', contains_eq_mem,
      decide_eq_false_iff_not] at h
    obtain ⟨hnodup, hnew⟩ := ih h.2
    simp only [mem_cons, not_or] at hnew
    refine ⟨nodup_cons.mpr ⟨fun hmem => ?_, hnodup⟩, fun other hother => ?_⟩
    · obtain ⟨other, hother, hid⟩ := mem_map.mp hmem
      exact (hnew other hother).1 hid
    rcases mem_cons.mp hother with rfl | hother
    · exact h.1
    · exact (hnew other hother).2

/-- Where a node stands is determined by its id. -/
theorem index_eq_of_id (h : (nodes.map (·.id)).Nodup) {j : Nat} {a b : Node}
    (ha : nodes[i]? = some a) (hb : nodes[j]? = some b) (hid : a.id = b.id) : i = j := by
  have hlt : i < (nodes.map (·.id)).length := by
    rw [length_map]
    exact (getElem?_eq_some_iff.mp ha).1
  refine (List.getElem?_inj hlt h).mp ?_
  rw [getElem?_map, getElem?_map, ha, hb, map_some, map_some, hid]

/-- The change of the rollout in `Resume`, if its nodes have distinct ids. -/
theorem resumed_move {availability : Availability} (hids : validIDs r.orderedNodes [])
    (h : resumed r availability = .ok r') : Move r r' := by
  unfold resumed at h
  split at h
  · cases h
  rename_i node hnode
  obtain ⟨r1, hset, hresume⟩ := bind_eq_ok.mp h
  replace hset := of_check hset
  split at hset
  · cases hset
  rename_i index hindex
  -- The node that gets the availability is the current one.
  have hcurrent : index = r.currentIndex := by
    obtain ⟨hlt, hfound, -⟩ := List.findIdx?_eq_some_iff_getElem.mp hindex
    exact index_eq_of_id (nodup_of_validIDs hids).1 (getElem?_eq_getElem hlt) hnode
      (by simpa using hfound)
  obtain rfl := ok.inj hset
  subst hcurrent
  have hlt : r.currentIndex < r.orderedNodes.length := (getElem?_eq_some_iff.mp hnode).1
  have hmodify : r.orderedNodes.modify r.currentIndex
      (fun node => { node with availability }) =
      r.orderedNodes.set r.currentIndex { node with availability } := by
    rw [List.modify_eq_set_getElem?, hnode]
    rfl
  rw [hmodify] at hresume
  unfold Rollout.resume at hresume
  split at hresume
  · cases hresume
  rename_i node1 hnode1
  obtain ⟨hstopped, hnode1⟩ := current_eq_some hnode1
  change (r.orderedNodes.set r.currentIndex _)[r.currentIndex]? = some node1 at hnode1
  rw [List.getElem?_set_self hlt] at hnode1
  obtain rfl := some.inj hnode1
  split at hresume
  · cases hresume
  rename_i hallowed
  obtain rfl := ok.inj hresume
  simp only [or_eq_true, decide_eq_true_eq, not_or, not_not, and_eq_true, ne_eq,
    Decidable.not_and_iff_or_not] at hallowed
  obtain ⟨⟨hblocked, rfl⟩, hfrom⟩ := hallowed
  have hstopped : r.rolloutState = .stopped := hstopped
  have hmove := Move.of_kind hstopped hnode (.resume hblocked hfrom)
  simpa only [setCurrent, List.set_set] using hmove

/-! ## Checks after a move -/

/-- What the states of a running rollout's current node have in common. -/
theorem active_cases (h : active s) : s.known ∧ s ≠ .blocked ∧ s ≠ .updated := by
  cases s <;> simp_all [active, known]

/-- A step leads from one of these states to another one. -/
theorem active_of_follows (h : follows s next) : active s ∧ active next := by
  cases s <;> cases next <;> simp_all [follows, active]

variable {version : GoString} {updated : Bool} {target : Target}

theorem NodeMove.valid (h : NodeMove version node before node' after updated)
    (hversion : invalidIdentity version 128 = false)
    (hnode : validNode version node target) : validNode version node' target := by
  unfold validNode at hnode ⊢
  simp only [and_eq_true, Bool.not_eq_true'] at hnode ⊢
  obtain ⟨⟨⟨⟨⟨⟨⟨⟨hid, hcurrent⟩, havailability⟩, hknown⟩, hblocked⟩, htarget⟩, hpending⟩, hfrom⟩,
    hversions⟩ := hnode
  cases h with
  | next next hfollows =>
    obtain ⟨hactive, hto⟩ := active_of_follows hfollows
    obtain ⟨-, hnotblocked, hnotupdated⟩ := active_cases hactive
    obtain ⟨hknown', hnotblocked', hnotupdated'⟩ := active_cases hto
    rw [if_neg hnotblocked] at hblocked
    rw [if_neg hnotupdated] at hversions
    rw [if_neg hnotblocked', if_neg hnotupdated']
    exact ⟨⟨⟨⟨⟨⟨⟨⟨hid, hcurrent⟩, havailability⟩, hknown'⟩, hblocked⟩, htarget⟩, hpending⟩, hfrom⟩,
      hversions⟩
  | block hstate =>
    have hnotupdated : node.state ≠ .updated := by rcases hstate with h | h <;> rw [h] <;> decide
    rw [if_neg hnotupdated] at hversions
    refine ⟨⟨⟨⟨⟨⟨⟨⟨hid, hcurrent⟩, havailability⟩, rfl⟩, ?_⟩, htarget⟩, hpending⟩, hfrom⟩, hversions⟩
    simpa using hstate
  | update hstate =>
    have hnotblocked : node.state ≠ .blocked := by rw [hstate]; decide
    rw [if_neg hnotblocked] at hblocked
    exact ⟨⟨⟨⟨⟨⟨⟨⟨hid, hversion⟩, havailability⟩, rfl⟩, hblocked⟩, htarget⟩, hpending⟩, hfrom⟩, by simp⟩
  | rolledBack hstate | failed hstate =>
    have hnotblocked : node.state ≠ .blocked := by rw [hstate]; decide
    have hnotupdated : node.state ≠ .updated := by rw [hstate]; decide
    rw [if_neg hnotblocked] at hblocked
    rw [if_neg hnotupdated] at hversions
    exact ⟨⟨⟨⟨⟨⟨⟨⟨hid, hcurrent⟩, havailability⟩, rfl⟩, hblocked⟩, htarget⟩, hpending⟩, hfrom⟩,
      hversions⟩
  | resume hstate hcame =>
    have hnotupdated : node.state ≠ .updated := by rw [hstate]; decide
    rw [if_neg hnotupdated] at hversions
    have hactive : active node.blockedFrom := by
      rcases hcame with h | h <;> rw [h] <;> rfl
    obtain ⟨hknown', hnotblocked', hnotupdated'⟩ := active_cases hactive
    rw [if_neg hnotblocked', if_neg hnotupdated']
    exact ⟨⟨⟨⟨⟨⟨⟨⟨hid, hcurrent⟩, rfl⟩, hknown'⟩, by simp⟩, htarget⟩, hpending⟩, hfrom⟩, hversions⟩

theorem NodeMove.same (h : NodeMove version node before node' after updated) :
    node'.id = node.id ∧ node'.role = node.role := by
  cases h <;> exact ⟨rfl, rfl⟩

/-- The order of the nodes, node by node. -/
theorem validOrder_iff : validOrder r ↔ ∀ i node, r.orderedNodes[i]? = some node →
    (i < r.currentIndex → node.state = .updated) ∧ (r.currentIndex < i → node.state = .pending) := by
  simp only [validOrder, and_eq_true, all_eq_true, decide_eq_true_eq]
  constructor
  · rintro ⟨hbefore, hafter⟩ i node hnode
    refine ⟨fun hlt => hbefore node ?_, fun hlt => hafter node ?_⟩
    · exact mem_of_getElem? (i := i) (by rw [List.getElem?_take_of_lt hlt, hnode])
    refine mem_of_getElem? (i := i - (r.currentIndex + 1)) ?_
    rw [List.getElem?_drop, Nat.add_sub_cancel' hlt, hnode]
  intro h
  refine ⟨fun node hmem => ?_, fun node hmem => ?_⟩
  · obtain ⟨i, hi⟩ := mem_iff_getElem?.mp hmem
    rw [List.getElem?_take] at hi
    split at hi
    · exact (h i node hi).1 ‹_›
    · cases hi
  obtain ⟨i, hi⟩ := mem_iff_getElem?.mp hmem
  rw [List.getElem?_drop] at hi
  exact (h _ node hi).2 (by omega)

/-- The nodes after a move. -/
theorem Moves.getElem? {status : RolloutStatus}
    (h : Moves r r' node node' status updated) (i : Nat) :
    r'.orderedNodes[i]? = if i = r.currentIndex then some node' else r.orderedNodes[i]? := by
  have hlt : r.currentIndex < r.orderedNodes.length := (getElem?_eq_some_iff.mp h.current).1
  rw [h.nodes, getElem?_set]
  by_cases hi : r.currentIndex = i
  · subst hi
    rw [if_pos rfl, if_pos hlt, if_pos rfl]
  · rw [if_neg hi, if_neg (Ne.symm hi)]

/-- The node that an update moves is updated. -/
theorem NodeMove.updated_state (h : NodeMove version node before node' after true) :
    node'.state = .updated ∧ after = .running := by
  cases h
  exact ⟨rfl, rfl⟩

/-- The nodes stay in order. -/
theorem Move.order (h : Move r r') (horder : validOrder r) : validOrder r' := by
  obtain ⟨node, node', status, updated, h⟩ := h
  rw [validOrder_iff] at horder ⊢
  intro i other hother
  rw [h.getElem?] at hother
  rw [h.index]
  by_cases hi : i = r.currentIndex
  · rw [if_pos hi] at hother
    obtain rfl := some.inj hother
    cases updated with
    | false => simp [hi]
    | true => exact ⟨fun _ => h.kind.updated_state.1, fun hlt => by simp at hlt; omega⟩
  rw [if_neg hi] at hother
  obtain ⟨hbefore, hafter⟩ := horder i other hother
  cases updated with
  | false => exact ⟨hbefore, hafter⟩
  | true =>
    simp only [if_true]
    exact ⟨fun hlt => hbefore (by omega), fun hlt => hafter (by omega)⟩

/-- The status stays right. -/
theorem Move.status (h : Move r r') (horder : validOrder r) : validStatus r' := by
  have horder' := Move.order h horder
  obtain ⟨node, node', status, updated, h⟩ := h
  have hlt : r.currentIndex < r.orderedNodes.length := (getElem?_eq_some_iff.mp h.current).1
  have hlength : r'.orderedNodes.length = r.orderedNodes.length := by rw [h.nodes, length_set]
  unfold validStatus
  rw [h.state]
  cases updated with
  | true =>
    obtain ⟨-, rfl⟩ := h.kind.updated_state
    have hindex : r'.currentIndex = r.currentIndex + 1 := h.index
    by_cases hlast : r.currentIndex + 1 = r.orderedNodes.length
    · -- It was the last node.
      simp only [hlast, decide_true, Bool.and_self, if_true, and_eq_true, decide_eq_true_eq,
        all_eq_true]
      refine ⟨by omega, fun other hother => ?_⟩
      obtain ⟨i, hi⟩ := mem_iff_getElem?.mp hother
      have hlt' := (getElem?_eq_some_iff.mp hi).1
      exact (validOrder_iff.mp horder' i other hi).1 (by omega)
    -- The next node is pending.
    simp only [hlast, decide_false, Bool.and_false, false_eq_true, if_false, and_eq_true]
    refine ⟨?_, horder'⟩
    have hnext : r'.currentIndex < r'.orderedNodes.length := by omega
    rw [getElem?_eq_getElem hnext, any_some]
    have hold : r.orderedNodes[r'.currentIndex]? = some r'.orderedNodes[r'.currentIndex] := by
      have hsame := h.getElem? r'.currentIndex
      rw [if_neg (by omega), getElem?_eq_getElem hnext] at hsame
      exact hsame.symm
    rw [((validOrder_iff.mp horder) _ _ hold).2 (by omega)]
    rfl
  | false =>
    have hindex : r'.currentIndex = r.currentIndex := h.index
    have hcurrent : r'.orderedNodes[r'.currentIndex]? = some node' := by
      rw [h.getElem?, if_pos hindex]
    rw [hcurrent]
    generalize hbefore : r.rolloutState = before at h
    have hkind := hbefore ▸ h.kind
    cases hkind with
    | next next hfollows => simp [(active_of_follows hfollows).2, horder']
    | block _ | rolledBack _ => simp [horder']
    | failed _ => simp
    | resume _ hcame =>
      have hactive : active node.blockedFrom := by
        rcases hcame with h | h <;> rw [h] <;> rfl
      simp [hactive, horder']

theorem Steps.same (h : Steps r r') : r'.rolloutState = .running ∧ r'.currentIndex = r.currentIndex ∧
    ∃ node next, r.orderedNodes[r.currentIndex]? = some node ∧ follows node.state next ∧
      r'.orderedNodes[r'.currentIndex]? = some { node with state := next } := by
  obtain ⟨node, next, hstatus, hnode, hfollows, rfl⟩ := h
  have hlt := (getElem?_eq_some_iff.mp hnode).1
  exact ⟨hstatus, rfl, node, next, hnode, hfollows, List.getElem?_set_self hlt⟩

/-- A node comes to be rolled back only after its rollback was pending. -/
theorem Steps.rollingBack (h : Steps r r')
    (hnode' : AtNode r' node') (hstate : node'.state = .rollingBack) :
    ∃ node, r.orderedNodes[r.currentIndex]? = some node ∧ node.id = node'.id ∧
      node.state = .rollbackPending := by
  obtain ⟨-, -, node, next, hnode, hfollows, hnext⟩ := h.same
  obtain rfl := mem_unique hnode' hnext
  refine ⟨node, hnode, rfl, ?_⟩
  obtain rfl : next = .rollingBack := hstate
  cases hfrom : node.state <;> rw [hfrom] at hfollows <;> cases hfollows

theorem all_zip_iff {l : List α} {m : List β} {p : α × β → Bool} :
    (l.zip m).all p ↔ ∀ (i : Nat) (a : α) (b : β), l[i]? = some a → m[i]? = some b → p (a, b) := by
  rw [all_eq_true]
  constructor
  · intro h i a b ha hb
    exact h (a, b) (mem_of_getElem? (i := i) (List.getElem?_zip_eq_some.mpr ⟨ha, hb⟩))
  rintro h ⟨a, b⟩ hmem
  obtain ⟨i, hi⟩ := mem_iff_getElem?.mp hmem
  obtain ⟨ha, hb⟩ := List.getElem?_zip_eq_some.mp hi
  exact h i a b ha hb

theorem validIDs_congr (h : l.map (·.id) = m.map (·.id)) (seen : List GoString) :
    validIDs l seen = validIDs m seen := by
  induction l generalizing m seen with
  | nil =>
    obtain rfl := map_eq_nil_iff.mp h.symm
    rfl
  | cons a l ih =>
    cases m with
    | nil => cases h
    | cons b m =>
      obtain ⟨hid, hrest⟩ := cons.inj h
      simp only [validIDs, hid, ih hrest]

theorem validRoles_congr (h : l.map (·.role) = m.map (·.role)) (n : Nat) :
    validRoles l n = validRoles m n := by
  induction l generalizing m n with
  | nil =>
    obtain rfl := map_eq_nil_iff.mp h.symm
    rfl
  | cons a l ih =>
    cases m with
    | nil => cases h
    | cons b m =>
      obtain ⟨hrole, hrest⟩ := cons.inj h
      have hempty : l.isEmpty = m.isEmpty := by
        rw [← List.isEmpty_map (f := (·.role)), hrest, List.isEmpty_map]
      simp only [validRoles, hrole, ih hrest, hempty]

theorem map_set_of_eq {f : α → β} {l : List α} {a a' : α} (ha : l[i]? = some a) (h : f a' = f a) :
    (l.set i a').map f = l.map f := by
  rw [List.map_set, h]
  obtain ⟨hlt, rfl⟩ := getElem?_eq_some_iff.mp ha
  rw [← List.getElem_map f (h := by simpa using hlt), List.set_getElem_self]

/-- The version of a label is an identity. -/
theorem invalidIdentity_of_validLabel {value : GoString} {max : Nat}
    (h : validLabel value max) : invalidIdentity value max = false := by
  simp only [validLabel, and_eq_true, decide_eq_true_eq, all_eq_true] at h
  obtain ⟨⟨⟨hne, hlength⟩, htrim⟩, hall⟩ := h
  simp only [invalidIdentity, or_eq_false_iff, decide_eq_false_iff_not, not_lt, ne_eq,
    not_not, contains_eq_mem]
  exact ⟨⟨⟨hne, hlength⟩, htrim⟩, fun hzero => absurd (hall 0 hzero) (by decide)⟩

/-- The parts of the check of a state that a move looks at or changes. -/
theorem validState_parts (h : validState sum256 state) :
    state.manifest.version = state.rollout.targetVersion ∧
    state.targets.length = state.rollout.orderedNodes.length ∧
    state.rollout.orderedNodes ≠ [] ∧
    state.rollout.currentIndex ≤ state.rollout.orderedNodes.length ∧
    validIDs state.rollout.orderedNodes [] ∧
    validRoles state.rollout.orderedNodes 0 ∧
    (∀ (i : Nat) node target, state.rollout.orderedNodes[i]? = some node →
      state.targets[i]? = some target →
      validNode state.manifest.version node target ∧ validTarget state.manifest node target) ∧
    validStatus state.rollout := by
  simp only [validState, validRollout, and_eq_true, decide_eq_true_eq] at h
  obtain ⟨⟨⟨⟨⟨⟨-, hversion⟩, hlength⟩, -⟩, ⟨⟨⟨⟨hne, hindex⟩, hids⟩, hroles⟩, hnodes⟩, hstatus⟩,
    htargets⟩, -⟩ := h
  refine ⟨hversion, hlength, hne, hindex, hids, hroles, fun i node target hnode htarget => ?_, hstatus⟩
  exact ⟨all_zip_iff.mp hnodes i node target hnode htarget,
    all_zip_iff.mp htargets i node target hnode htarget⟩

theorem validVersion (h : validState sum256 state) :
    invalidIdentity state.manifest.version 128 = false := by
  obtain ⟨-, hlength, hne, -, -, -, hpairs, -⟩ := validState_parts h
  have hpos : 0 < state.rollout.orderedNodes.length := List.length_pos_iff.mpr hne
  have htarget := (hpairs 0 _ _ (getElem?_eq_getElem hpos) (getElem?_eq_getElem (by omega))).2
  simp only [validTarget, and_eq_true] at htarget
  cases hselect : selectArtifact state.manifest state.targets[0].platform state.targets[0].arch with
  | error e =>
    rw [hselect] at htarget
    cases htarget.2
  | ok artifact => exact invalidIdentity_of_validLabel (validLabel_of_selectArtifact hselect)

theorem Move.valid (h : Move state.rollout r') (hvalid : validState sum256 state)
    (horder : validOrder state.rollout) : validState sum256 (state.withRollout r') := by
  have hstatus := Move.status h horder
  have hvers := validVersion hvalid
  obtain ⟨hversion, hlength, hne, hindex, hids, hroles, hpairs, -⟩ := validState_parts hvalid
  obtain ⟨node, node', status, updated, h⟩ := h
  obtain ⟨hid, hrole⟩ := h.kind.same
  have hlt := (getElem?_eq_some_iff.mp h.current).1
  have hlength' : r'.orderedNodes.length = state.rollout.orderedNodes.length := by
    rw [h.nodes, length_set]
  -- Each pair of a node and its target passes its checks.
  have hpairs' : ∀ (i : Nat) a target, r'.orderedNodes[i]? = some a → state.targets[i]? = some target →
      validNode state.manifest.version a target ∧ validTarget state.manifest a target := by
    intro i a target ha htarget
    rw [h.getElem?] at ha
    split at ha
    · rename_i hi
      subst hi
      obtain rfl := some.inj ha
      obtain ⟨hnode, htarget'⟩ := hpairs _ node target h.current htarget
      refine ⟨?_, by simpa only [validTarget, hid, hrole] using htarget'⟩
      have hkind := h.kind
      rw [← hversion] at hkind
      exact hkind.valid hvers hnode
    · exact hpairs i a target ha htarget
  simp only [validState, validRollout, and_eq_true, decide_eq_true_eq] at hvalid ⊢
  obtain ⟨⟨⟨⟨⟨⟨hhead, -⟩, -⟩, -⟩, -⟩, -⟩, hoperations⟩ := hvalid
  refine ⟨⟨⟨⟨⟨⟨hhead, ?_⟩, ?_⟩, rfl⟩, ⟨⟨⟨⟨?_, ?_⟩, ?_⟩, ?_⟩, ?_⟩, hstatus⟩, ?_⟩, hoperations⟩
  · exact hversion.trans h.version.symm
  · exact hlength.trans hlength'.symm
  · exact List.length_pos_iff.mp (lt_of_lt_of_eq (List.length_pos_iff.mpr hne) hlength'.symm)
  · have hmoved := h.index
    dsimp only [State.withRollout]
    split at hmoved <;> omega
  · have hsame : r'.orderedNodes.map (·.id) = state.rollout.orderedNodes.map (·.id) := by
      rw [h.nodes, map_set_of_eq h.current hid]
    exact (validIDs_congr hsame []).trans hids
  · have hsame : r'.orderedNodes.map (·.role) = state.rollout.orderedNodes.map (·.role) := by
      rw [h.nodes, map_set_of_eq h.current hrole]
    exact (validRoles_congr hsame 0).trans hroles
  · exact all_zip_iff.mpr fun i a target ha htarget => (hpairs' i a target ha htarget).1
  · exact all_zip_iff.mpr fun i a target ha htarget => (hpairs' i a target ha htarget).2

/-! ## Staging operations -/

/-- The digits of a checksum or an id are printing characters. -/
theorem hexText_printing {s : GoString} {b : UInt8} (h : b ∈ hexText s) : 0x20 < b ∧ b < 0x80 := by
  have hrange := mem_hexText h
  simp only [UInt8.le_iff_toNat_le, UInt8.lt_iff_toNat_lt, UInt8.reduceToNat] at hrange ⊢
  omega

theorem stageOperationID_valid (flowID nodeID version : GoString) (artifact : Artifact) :
    invalidIdentity (stageOperationID sum256 flowID nodeID version artifact) 256 = false := by
  unfold stageOperationID
  generalize hdigits : hexText _ = digits
  have hlength : digits.length ≤ 32 := by
    rw [← hdigits, length_hexText, List.length_take]
    omega
  have hprinting : ∀ b ∈ ofText "update:stage:" ++ digits ++ ofText ":1", 0x20 < b ∧ b < 0x80 := by
    intro b hb
    simp only [mem_append] at hb
    rcases hb with (hb | hb) | hb
    · revert b
      decide +kernel
    · rw [← hdigits] at hb
      exact hexText_printing hb
    revert b
    decide +kernel
  simp only [invalidIdentity, or_eq_false_iff, decide_eq_false_iff_not, not_lt, ne_eq, not_not,
    contains_eq_mem]
  refine ⟨⟨⟨?_, ?_⟩, (trimSpace_eq_self hprinting).symm⟩, fun hzero => ?_⟩
  · simp [ofText]
  · simp only [length_append]
    have hfront : (ofText "update:stage:").length = 13 := by decide
    have hback : (ofText ":1").length = 2 := by decide
    omega
  · exact absurd (hprinting 0 hzero).1 (by decide)

/-- A state with one more operation that passes its check. -/
theorem withOperation_valid (hvalid : validState sum256 state)
    (hoperation : validOperation sum256 state operation.nodeID operation) :
    validState sum256 (state.withOperation operation) := by
  simp only [validState, and_eq_true] at hvalid ⊢
  obtain ⟨hrest, hall⟩ := hvalid
  refine ⟨hrest, all_eq_true.mpr ?_⟩
  rintro ⟨nodeID, other⟩ hmem
  have hlookup := mem_entries.mp hmem
  rcases of_lookup_insert hlookup with ⟨rfl, rfl⟩ | hlookup
  · exact hoperation
  · exact all_eq_true.mp hall ⟨nodeID, other⟩ (mem_entries.mpr hlookup)

section

variable (hvalid : validState sum256 state) (hnode : AtNode state.rollout node)
  (htarget : state.target = some target)
include hvalid hnode htarget

theorem target_of_valid :
    target.node.id = node.id ∧
      (state.targets.find? fun other => other.node.id = target.node.id) = some target := by
  obtain ⟨-, hlength, -, -, hids, -, hpairs, -⟩ := validState_parts hvalid
  have hid : ∀ (i : Nat) node target, state.rollout.orderedNodes[i]? = some node →
      state.targets[i]? = some target → target.node.id = node.id := by
    intro i node target hnode htarget
    have htarget := (hpairs i node target hnode htarget).2
    simp only [validTarget, and_eq_true, decide_eq_true_eq] at htarget
    exact htarget.1.1.1.1.1
  refine ⟨hid _ node target hnode htarget, ?_⟩
  -- The targets have the ids of the nodes, which are distinct.
  have hsame : state.targets.map (·.node.id) = state.rollout.orderedNodes.map (·.id) := by
    refine List.ext_getElem (by simpa using hlength) fun i hi hi' => ?_
    simp only [List.getElem_map]
    simp only [length_map] at hi hi'
    exact hid i _ _ (getElem?_eq_getElem hi') (getElem?_eq_getElem hi)
  have hnodup : (state.targets.map (·.node.id)).Nodup := hsame ▸ (nodup_of_validIDs hids).1
  exact Table.find?_of_mem hnodup (mem_of_getElem? htarget)

/-- The operation that `beginStage` starts passes its check. -/
theorem newOperation_valid {artifact : Artifact}
    (hartifact : selectArtifact state.manifest target.platform target.arch = .ok artifact) :
    validOperation sum256 state target.node.id (newOperation sum256 state target artifact) := by
  have hfind := (target_of_valid hvalid hnode htarget).2
  simp [validOperation, newOperation, stageOperationID_valid, hfind, hartifact, Except.toOption]

end

/-- An operation that is confirmed by a receipt for it passes its check. -/
theorem confirmed_valid {receipt : StageReceipt}
    (hoperation : validOperation sum256 state nodeID operation)
    (hreceipt : confirms operation receipt) :
    validOperation sum256 state nodeID
      { operation with status := .confirmed, receipt := some receipt } := by
  simp only [validOperation, and_eq_true] at hoperation ⊢
  exact ⟨hoperation.1, hreceipt⟩

end Bria.UpdateFlow
