import Bria.UpdateFlow.Moves

/-!
# One node after the other

A call goes on only with the state that it has read or that it has saved without an error (`Held`). So
whatever it asks of the installer, the file shows it, and in the file the nodes are updated one after
the other (`rollout_sequential`).
-/

namespace Bria.UpdateFlow

open Go Update Program

variable {svc : Service} {state : State} {w : World} {id flowID : GoString} {nodes : List Node}

/-! ## The file -/

theorem deepEqual_parts {a b : State} (h : a.deepEqual b) :
    a.flowID = b.flowID ∧ a.rollout = b.rollout ∧
      ∀ id, a.stageOperations.lookup id = b.stageOperations.lookup id := by
  simp only [State.deepEqual, and_eq_true, decide_eq_true_eq, all_eq_true] at h
  obtain ⟨⟨⟨⟨⟨⟨⟨⟨⟨⟨-, -⟩, hflow⟩, -⟩, -⟩, -⟩, hrollout⟩, -⟩, -⟩, hab⟩, hba⟩ := h
  refine ⟨hflow, hrollout, fun id => Option.ext fun operation => ?_⟩
  exact ⟨fun hop => hab ⟨id, operation⟩ (mem_entries.mpr hop),
    fun hop => hba ⟨id, operation⟩ (mem_entries.mpr hop)⟩

/-- A state is equal to itself. -/
theorem deepEqual_refl (state : State) : state.deepEqual state := by
  have hself : state.stageOperations.entries.all
      (fun e => state.stageOperations.lookup e.1 = some e.2) :=
    all_eq_true.mpr fun e he => decide_eq_true (mem_entries.mp he)
  simp only [State.deepEqual, hself, decide_true, Bool.and_self]

/-- JSON keeps the state of a node that is one of the constants. -/
theorem nodeJSON_state {node : Node} (h : node.state.known) :
    (nodeJSON node).state = node.state := by
  unfold nodeJSON
  cases hstate : node.state <;> simp_all [nodeJSON.stateJSON, NodeState.known]

theorem json_order (h : validOrder state.rollout) : validOrder state.json.rollout := by
  rw [validOrder_iff] at h ⊢
  intro i node hnode
  change (state.rollout.orderedNodes.map nodeJSON)[i]? = some node at hnode
  rw [getElem?_map] at hnode
  obtain ⟨old, hold, rfl⟩ := map_eq_some_iff.mp hnode
  obtain ⟨hbefore, hafter⟩ := h i old hold
  refine ⟨fun hlt => ?_, fun hlt => ?_⟩
  · rw [nodeJSON_state (by rw [hbefore hlt]; rfl)]
    exact hbefore hlt
  rw [nodeJSON_state (by rw [hafter hlt]; rfl)]
  exact hafter hlt

/-- The states of a node for which a rollback was asked. -/
def NodeState.spent : NodeState → Bool
  | .rollingBack | .awaitingRollbackHealth | .rolledBack | .rollbackFailed => true
  | _ => false

/-- A rollback was asked for the node, or may have been. -/
def Spent (id : GoString) (r : Rollout) : Prop :=
  ∃ node ∈ r.orderedNodes, node.id = id ∧ NodeState.spent node.state

/-- The ids of the nodes survive JSON. -/
def Fixed (r : Rollout) : Prop := ∀ node ∈ r.orderedNodes, jsonText node.id = node.id

/-- A node stays spent in the file. -/
theorem json_spent (hfixed : Fixed state.rollout) (h : Spent id state.rollout) :
    Spent id state.json.rollout := by
  obtain ⟨node, hmem, rfl, hspent⟩ := h
  have hknown : node.state.known := by
    cases hstate : node.state <;> simp_all [NodeState.spent, NodeState.known]
  exact ⟨nodeJSON node, mem_map_of_mem hmem, hfixed node hmem, nodeJSON_state hknown ▸ hspent⟩

/-- The ids in a file survive JSON. -/
theorem json_fixed (state : State) : Fixed state.json.rollout := by
  intro node hmem
  obtain ⟨old, -, rfl⟩ := mem_map.mp hmem
  exact jsonText_jsonText old.id

variable {r r' : Rollout}

/-- A move keeps a node spent. -/
theorem Move.spent (h : Move r r') (hspent : Spent id r) : Spent id r' := by
  obtain ⟨node, node', status, updated, h⟩ := h
  obtain ⟨other, hmem, hid, hspent⟩ := hspent
  obtain ⟨i, hi⟩ := mem_iff_getElem?.mp hmem
  have hlater := h.getElem? i
  by_cases hcurrent : i = r.currentIndex
  · rw [if_pos hcurrent] at hlater
    subst hcurrent
    obtain rfl := mem_unique hi h.current
    refine ⟨node', mem_of_getElem? hlater, h.kind.same.1.trans hid, ?_⟩
    -- Only from these states can a spent node be moved.
    generalize hbefore : r.rolloutState = before at h
    have hkind := hbefore ▸ h.kind
    cases hkind with
    | next next hfollows =>
      cases hstate : other.state <;> rw [hstate] at hspent hfollows <;> cases hspent <;>
        cases next <;> cases hfollows
      rfl
    | block hfrom => rcases hfrom with hfrom | hfrom <;> rw [hfrom] at hspent <;> cases hspent
    | update hfrom | resume hfrom _ => rw [hfrom] at hspent; cases hspent
    | rolledBack _ => rfl
    | failed _ => rfl
  · rw [if_neg hcurrent, hi] at hlater
    exact ⟨other, mem_of_getElem? hlater, hid, hspent⟩

/-- A move keeps the ids. -/
theorem Move.fixed (h : Move r r') (hfixed : Fixed r) : Fixed r' := by
  obtain ⟨node, node', status, updated, h⟩ := h
  intro other hmem
  obtain ⟨i, hi⟩ := mem_iff_getElem?.mp hmem
  rw [h.getElem?] at hi
  split at hi
  · obtain rfl := some.inj hi
    rw [h.kind.same.1]
    exact hfixed node (mem_of_getElem? h.current)
  · exact hfixed other (mem_of_getElem? hi)

/-! ## The invariant -/

/-- A request of a rollback of the node, but for one of `RetryRollback`. -/
def asksRollback (id : GoString) : Request → Bool
  | .rollback false request => request.nodeID = id
  | _ => false

/-- How often such a rollback was asked for. -/
def rollbacks (id : GoString) (trace : List Entry) : Nat :=
  trace.countP fun e => asksRollback id e.request

/-- What the file shows when a node is installed: the receipt for its staging, and if the node is the
coordinator, that the executors are updated. -/
def Installable (request : InstallRequest) (file : Option State) : Prop :=
  ∃ f node, file = some f ∧ node ∈ f.rollout.orderedNodes ∧ node.id = request.nodeID ∧
    f.staged request.nodeID = some request.stage ∧
    (node.role = .coordinator →
      ∀ other ∈ f.rollout.orderedNodes, other.role = .executor → other.state = .updated)

/-- What holds at every point of a run. -/
structure Good (svc : Service) (w : World) : Prop where
  order : ∀ f, w.file = some f → validOrder f.rollout ∧ Fixed f.rollout
  saves : ∀ e ∈ w.trace, ∀ state, e.request = .save state → validState svc.sum256 state
  installs : ∀ e ∈ w.trace, ∀ request, e.request = .install request → Installable request e.file
  once : ∀ id, rollbacks id w.trace ≤ 1
  spent : ∀ id, rollbacks id w.trace ≠ 0 → ∃ f, w.file = some f ∧ Spent id f.rollout

/-- The state that a call goes on with, which the file shows. -/
structure Held (svc : Service) (state : State) (w : World) : Prop where
  valid : validState svc.sum256 state
  order : validOrder state.rollout
  fixed : Fixed state.rollout
  file : ∃ f, w.file = some f ∧ f.deepEqual state

/-- A state that may be handed to `Save`. -/
structure Next (svc : Service) (w : World) (state : State) : Prop where
  valid : validState svc.sum256 state
  order : validOrder state.rollout
  fixed : w.file ≠ none → Fixed state.rollout
  spent : ∀ f id, w.file = some f → Spent id f.rollout → Spent id state.rollout

section

variable (h : Held svc state w)
include h

/-- The file shows the rollout that is held. -/
theorem Held.rollout_eq {f : State} (hf : w.file = some f) : f.rollout = state.rollout := by
  obtain ⟨f', hf', hequal⟩ := h.file
  obtain rfl := mem_unique hf hf'
  exact (deepEqual_parts hequal).2.1

/-- The rollout has moved. -/
theorem Held.move (hmove : Move state.rollout r') : Next svc w (state.withRollout r') := by
  refine ⟨hmove.valid h.valid h.order, hmove.order h.order, fun _ => hmove.fixed h.fixed, ?_⟩
  intro f id hf hspent
  exact hmove.spent (h.rollout_eq hf ▸ hspent)

/-- There is another operation. -/
theorem Held.operation (operation : StageOperation)
    (hoperation : validOperation svc.sum256 state operation.nodeID operation) :
    Next svc w (state.withOperation operation) := by
  refine ⟨withOperation_valid h.valid hoperation, h.order, fun _ => h.fixed, fun f id hf hspent => ?_⟩
  exact h.rollout_eq hf ▸ hspent

/-- Nothing has changed but the phase, which was right. -/
theorem Held.same : Next svc w (state.withRollout state.rollout) := by
  have hphase : state.withRollout state.rollout = state := by
    have hvalid := h.valid
    simp only [validState, and_eq_true, decide_eq_true_eq] at hvalid
    have hphase : state.phase = derivePhase state.rollout := hvalid.1.1.1.2
    unfold State.withRollout
    rw [← hphase]
  rw [hphase]
  refine ⟨h.valid, h.order, fun _ => h.fixed, fun f id hf hspent => ?_⟩
  exact h.rollout_eq hf ▸ hspent

end

/-- A program that starts where the invariant holds keeps it at every point, and ends with what is
said. -/
def Keeps {α : Type} (svc : Service) (post : α → World → Prop) (work : Work α) (w : World) : Prop :=
  Good svc w → Safe (surroundings svc) (Good svc) post work w

section

variable {α β : Type} {post : α → World → Prop} {next : β → World → Prop}

theorem Keeps.pure {a : α} (h : post a w) : Keeps svc post (pure a) w := fun hgood => ⟨hgood, h⟩

theorem Keeps.bind {work : Work α} {f : α → Work β} (h : Keeps svc post work w)
    (hf : ∀ a w', post a w' → Keeps svc next (f a) w') : Keeps svc next (work >>= f) w :=
  fun hgood => Safe.bind (h hgood) fun a w' hgood' hpost => hf a w' hpost hgood'

end

/-! ## Requests -/

theorem loadState_eq_ok {file found : Option State} (h : loadState svc flowID file = .ok found) :
    file = found := by
  unfold loadState at h
  split at h
  · rw [ok.inj h]
  split at h
  · cases h
  · rw [ok.inj h]

/-- A save leaves the file or replaces it, and if it succeeds, the file shows the state. -/
theorem performSave_file (svc : Service) (state : State) (saved : SaveEnd) (file : Option State) :
    ((performSave svc state saved file).2 = file ∨
      (performSave svc state saved file).2 = some state.json) ∧
    ((performSave svc state saved file).1 = .ok () →
      ∃ f, (performSave svc state saved file).2 = some f ∧ f.deepEqual state) := by
  unfold performSave
  split
  · exact ⟨.inl rfl, by simp⟩
  · exact ⟨.inl rfl, by simp⟩
  split
  · exact ⟨.inl rfl, by simp⟩
  split
  · exact ⟨.inl rfl, by simp⟩
  · -- The file already shows the state.
    rename_i hreplaces
    refine ⟨.inl rfl, fun _ => ?_⟩
    unfold replaces at hreplaces
    split at hreplaces
    · cases hreplaces
    · rename_i current hload
      split at hreplaces
      · rename_i hequal
        exact ⟨current, loadState_eq_ok hload, by simpa using (Bool.and_eq_true_iff.mp hequal).2⟩
      · split at hreplaces <;> cases hreplaces
    · split at hreplaces <;> cases hreplaces
  · split
    · exact ⟨.inr rfl, by simp⟩
    refine ⟨.inr rfl, fun hok => ⟨_, rfl, ?_⟩⟩
    unfold verifySaved at hok
    split at hok
    · cases hok
    · cases hok
    rename_i persisted hload
    obtain rfl := some.inj (loadState_eq_ok hload)
    split at hok
    · assumption
    · cases hok

/-- The requests about which the invariant says nothing. -/
def Request.plain : Request → Bool
  | .save _ | .install _ | .rollback false _ => false
  | _ => true

/-- What a request leaves alone: the file, and the number of rollbacks. -/
def Undisturbed (w w' : World) : Prop :=
  w'.file = w.file ∧ ∀ id, rollbacks id w'.trace = rollbacks id w.trace

/-- The file and the state that it shows stay. -/
theorem Held.undisturbed {w' : World} (h : Held svc state w) (hw : w'.file = w.file) :
    Held svc state w' :=
  ⟨h.valid, h.order, h.fixed, hw.symm ▸ h.file⟩

/-- One more request keeps the invariant, if it is right itself and the file shows no less. -/
theorem Good.request (h : Good svc w) {r : Request} (c : Choice r)
    (horder : ∀ f, ((surroundings svc).perform r w c).2.file = some f →
      validOrder f.rollout ∧ Fixed f.rollout)
    (hsave : ∀ state, r = .save state → validState svc.sum256 state)
    (hinstall : ∀ request, r = .install request → Installable request w.file)
    (hcount : ∀ id, rollbacks id ((surroundings svc).perform r w c).2.trace ≤ 1)
    (hspent : ∀ id, rollbacks id ((surroundings svc).perform r w c).2.trace ≠ 0 →
      ∃ f, ((surroundings svc).perform r w c).2.file = some f ∧ Spent id f.rollout) :
    Good svc ((surroundings svc).perform r w c).2 := by
  refine ⟨horder, ?_, ?_, hcount, hspent⟩
  · intro e he state hstate
    rcases mem_cons.mp he with rfl | he
    · exact hsave state hstate
    · exact h.saves e he state hstate
  intro e he request hrequest
  rcases mem_cons.mp he with rfl | he
  · exact hinstall request hrequest
  · exact h.installs e he request hrequest

/-- A plain request keeps the invariant. -/
theorem Good.plain (h : Good svc w) {r : Request} (hr : r.plain) (c : Choice r) :
    Good svc ((surroundings svc).perform r w c).2 ∧
      Undisturbed w ((surroundings svc).perform r w c).2 := by
  have hfile : ((surroundings svc).perform r w c).2.file = w.file := by
    cases r with
    | load flowID => cases c <;> rfl
    | save state => cases hr
    | _ => rfl
  have hcount : ∀ id, rollbacks id ((surroundings svc).perform r w c).2.trace =
      rollbacks id w.trace := by
    intro id
    refine List.countP_cons_of_neg ?_
    cases r with
    | rollback retry request => cases retry <;> simp_all [Request.plain, asksRollback]
    | _ => simp [asksRollback]
  refine ⟨h.request c (fun f hf => h.order f (hfile ▸ hf)) ?_ ?_ (fun id => hcount id ▸ h.once id)
    ?_, hfile, hcount⟩
  · intro state hstate
    obtain rfl : r = .save state := hstate
    cases hr
  · intro request hrequest
    obtain rfl : r = .install request := hrequest
    cases hr
  intro id hne
  rw [hcount] at hne
  rw [hfile]
  exact h.spent id hne

/-- A plain request in a program. -/
theorem plain_safe {r : Request} (hr : r.plain) :
    Keeps svc (fun _ w' => Undisturbed w w') (Program.request r : Work (Answer r)) w :=
  fun hgood => ⟨hgood, fun c => hgood.plain hr c⟩

theorem save_safe (hnext : Next svc w state) :
    Keeps svc (fun a w' =>
      (∀ id, rollbacks id w'.trace = rollbacks id w.trace) ∧
        (a = .ok () → ∃ f, w'.file = some f ∧ f.deepEqual state)) (save state) w := by
  refine fun hgood => ⟨hgood, fun saved => ?_⟩
  obtain ⟨hfile, hok⟩ := performSave_file svc state saved w.file
  refine ⟨?_, fun id => List.countP_cons_of_neg (by simp [asksRollback]), hok⟩
  -- Whatever the file shows now, it shows more of the work.
  have hgrown : ∀ f, (performSave svc state saved w.file).2 = some f →
      (validOrder f.rollout ∧ Fixed f.rollout) ∧
        ∀ f0 id, w.file = some f0 → Spent id f0.rollout → Spent id f.rollout := by
    intro f hf
    rcases hfile with hsame | hnew
    · rw [hsame] at hf
      refine ⟨hgood.order f hf, fun f0 id hf0 hspent => ?_⟩
      obtain rfl := mem_unique hf hf0
      exact hspent
    obtain rfl := mem_unique hnew hf
    refine ⟨⟨json_order hnext.order, json_fixed state⟩, fun f0 id hf0 hspent => ?_⟩
    exact json_spent (hnext.fixed (by simp [hf0])) (hnext.spent f0 id hf0 hspent)
  have hcount : ∀ id, rollbacks id ((surroundings svc).perform (.save state) w saved).2.trace =
      rollbacks id w.trace := fun id => List.countP_cons_of_neg (by simp [asksRollback])
  refine hgood.request (r := .save state) saved (fun f hf => (hgrown f hf).1) ?_ ?_
    (fun id => hcount id ▸ hgood.once id) ?_
  · intro state' hstate
    obtain rfl := Request.save.inj hstate
    exact hnext.valid
  · intro request hrequest
    cases hrequest
  intro id hne
  obtain ⟨f0, hf0, hspent⟩ := hgood.spent id hne
  -- There is still a file.
  have hsome : ∃ f, (performSave svc state saved w.file).2 = some f := by
    rcases hfile with hsame | hnew
    · exact ⟨f0, hsame.trans hf0⟩
    · exact ⟨_, hnew⟩
  obtain ⟨f, hf⟩ := hsome
  exact ⟨f, hf, (hgrown f hf).2 f0 id hf0 hspent⟩

theorem persist_safe (hnext : Next svc w state) :
    Keeps svc (fun p w' =>
      (∀ id, rollbacks id w'.trace = rollbacks id w.trace) ∧ (p.2 = none → Held svc p.1 w' ∧
        p.1 = { state with revision := state.revision + 1 })) (persist state) w := by
  unfold persist
  split
  · exact .pure ⟨fun _ => rfl, by simp⟩
  have hrevised : Next svc w { state with revision := state.revision + 1 } :=
    ⟨hnext.valid, hnext.order, hnext.fixed, hnext.spent⟩
  refine .bind (save_safe hrevised) fun a w' ⟨hcount, hok⟩ hgood => ?_
  rcases a with e | u
  · exact ⟨hgood, hcount, by simp⟩
  refine ⟨hgood, hcount, fun _ => ⟨?_, rfl⟩⟩
  obtain ⟨f, hf, hequal⟩ := hok rfl
  obtain ⟨-, hrollout, -⟩ := deepEqual_parts hequal
  exact ⟨hnext.valid, hnext.order, hrollout ▸ (hgood.order f hf).2, f, hf, hequal⟩

/-- A program goes on with the state that was saved. -/
theorem persist_bind {β : Type} {post : β → World → Prop} {f : State × Option Err → Work β}
    (hnext : Next svc w state) (hfail : ∀ state e w', Keeps svc post (f (state, some e)) w')
    (hf : ∀ w', (∀ id, rollbacks id w'.trace = rollbacks id w.trace) →
      Held svc { state with revision := state.revision + 1 } w' →
      Keeps svc post (f ({ state with revision := state.revision + 1 }, none)) w') :
    Keeps svc post (persist state >>= f) w := by
  refine .bind (persist_safe hnext) fun p w' ⟨hcount, hok⟩ => ?_
  obtain ⟨state', e⟩ := p
  cases e with
  | some e => exact hfail state' e w'
  | none =>
    obtain ⟨hheld, rfl⟩ := hok rfl
    exact hf w' hcount hheld

/-! ## Turns -/

/-- What holds when the loop of `advanceCurrent` goes on: if a rollback was issued in it and the node is
to be rolled back, no rollback was asked for yet. -/
structure Going (svc : Service) (target : Target) (state : State) (issued : Bool) (w : World) :
    Prop where
  held : Held svc state w
  status : state.rollout.rolloutState = .running
  target : state.target = some target
  first : issued → ∀ node,
    state.rollout.orderedNodes[state.rollout.currentIndex]? = some node →
    node.state = .rollingBack → rollbacks node.id w.trace = 0

/-- What holds after a turn. -/
def After (svc : Service) (target : Target) (turn : Turn) (w : World) : Prop :=
  match turn with
  | .again state issued => Going svc target state issued w
  | .ended state e => e = none → Held svc state w

variable {node : Node} {target : Target} {issued : Bool}

theorem ended_safe {e : Err} : Keeps svc (After svc target) (pure (.ended state (some e))) w :=
  .pure fun h => by cases h

theorem saveAgain_safe (hnext : Next svc w state)
    (hstatus : state.rollout.rolloutState = .running) (htarget : state.target = some target)
    (hissued : issued → ∀ node,
      state.rollout.orderedNodes[state.rollout.currentIndex]? = some node →
      node.state = .rollingBack → rollbacks node.id w.trace = 0) :
    Keeps svc (After svc target) (saveAgain state issued) w := by
  refine persist_bind hnext (fun _ _ _ => ended_safe) fun w' hcount hheld => ?_
  refine .pure ⟨hheld, hstatus, htarget, fun htrue node hnode hstate => ?_⟩
  rw [hcount]
  exact hissued htrue node hnode hstate

theorem saveEnded_safe {result : Option Err} (hnext : Next svc w state) :
    Keeps svc (After svc target) (saveEnded state result) w :=
  persist_bind hnext (fun _ _ _ => ended_safe) fun _ _ hheld => .pure fun _ => hheld

/-- While a node is not spent, no rollback of it was asked for. -/
theorem Held.unspent (h : Held svc state w) (hgood : Good svc w) (hnode : AtNode state.rollout node)
    (hunspent : NodeState.spent node.state = false) : rollbacks node.id w.trace = 0 := by
  by_contra hne
  obtain ⟨f, hf, hspent⟩ := hgood.spent node.id hne
  rw [h.rollout_eq hf] at hspent
  obtain ⟨other, hmem, hid, hspent⟩ := hspent
  -- There is only one node with the id.
  obtain ⟨i, hi⟩ := mem_iff_getElem?.mp hmem
  obtain ⟨-, -, -, -, hids, -⟩ := validState_parts h.valid
  obtain rfl := index_eq_of_id (nodup_of_validIDs hids).1 hi hnode hid
  obtain rfl := mem_unique hi hnode
  rw [hunspent] at hspent
  cases hspent

/-- A branch that saves the state after a step and goes on. -/
theorem stepAgain_safe (h : Held svc state w)
    (htarget : state.target = some target) (hsteps : Steps state.rollout r') :
    Keeps svc (After svc target) (saveAgain (state.withRollout r') issued) w := by
  obtain ⟨hstatus, hindex, -⟩ := hsteps.same
  have htarget' : (state.withRollout r').target = some target := by
    unfold State.target State.withRollout at *
    rw [← htarget]
    exact congrArg _ hindex
  refine fun hgood =>
    saveAgain_safe (h.move hsteps.move) hstatus htarget' (fun _ node' hnode' hstate => ?_) hgood
  obtain ⟨node, hnode, hid, hpending⟩ := hsteps.rollingBack hnode' hstate
  rw [← hid]
  exact h.unspent hgood hnode (by rw [hpending]; rfl)

theorem act_safe {issued' : Bool} (h : Going svc target state issued w)
    (hnode : AtNode state.rollout node)
    (hstate : node.state = .pending ∨ node.state = .rollbackPending) :
    Keeps svc (After svc target) (act state issued') w := by
  obtain ⟨hmove, hsteps⟩ := nextAction_move h.status hnode hstate
  unfold act
  split
  · rename_i e r' hnext
    rw [hnext] at hmove
    exact saveEnded_safe (h.held.move hmove)
  rename_i r' hnext
  rw [hnext] at hsteps
  exact stepAgain_safe h.held h.target (hsteps rfl)

variable {nodeID : GoString}

section

variable (h : Held svc state w) (htarget : state.target = some target)
include h htarget

theorem turnApplied_safe : Keeps svc (After svc target) (turnApplied state nodeID issued) w := by
  unfold turnApplied
  split
  · exact ended_safe
  · exact stepAgain_safe h htarget (recordApplied_steps ‹_›)

theorem scheduleRollback_safe :
    Keeps svc (After svc target) (scheduleRollback state nodeID issued) w := by
  unfold scheduleRollback
  split
  · exact ended_safe
  · exact stepAgain_safe h htarget (recordApplyFailure_steps ‹_›)

end

/-! ## Staging -/

theorem fetch_safe {artifact : Artifact} :
    Keeps svc (fun _ w' => Undisturbed w w') (fetch svc artifact) w := by
  refine .bind (plain_safe (r := .artifact artifact) rfl) fun a w' hsame => ?_
  split
  · exact .pure hsame
  · exact .pure hsame
  split
  · exact .pure hsame
  · exact .pure hsame

theorem confirmStage_safe {operation : StageOperation} (h : Held svc state w)
    (hoperation : validOperation svc.sum256 state operation.nodeID operation)
    (htarget : operation.nodeID = target.node.id) :
    Keeps svc (fun p w' => p.2 = none → Held svc p.1 w' ∧
      p.1.rollout = state.rollout ∧ p.1.targets = state.targets)
      (confirmStage svc state target operation) w := by
  have hstage : Keeps svc (fun receipt w' => Undisturbed w w' ∧
      ∀ r, receipt = some r → confirms operation r) (stagePayload svc target operation) w := by
    refine .bind (plain_safe (r := .stage _) rfl) fun staged w' hsame => ?_
    refine .pure ⟨hsame, fun r hr => ?_⟩
    obtain ⟨-, hr⟩ := filter_eq_some_iff.mp hr
    simp only [and_eq_true, ← htarget] at hr
    exact hr.1.2
  refine .bind hstage fun receipt w' ⟨hsame, hreceipt⟩ => ?_
  rcases receipt with _ | r
  · exact .pure fun h => by cases h
  have hnext := (h.undisturbed hsame.1).operation
    { operation with status := .confirmed, receipt := some r }
    (confirmed_valid hoperation (hreceipt r rfl))
  refine fun hgood => (persist_safe hnext hgood).mono fun p w'' ⟨_, hok⟩ hnone => ?_
  obtain ⟨hheld, hp⟩ := hok hnone
  exact ⟨hheld, by rw [hp]; rfl, by rw [hp]; rfl⟩

theorem beginStage_safe (h : Held svc state w) (hnode : AtNode state.rollout node)
    (htarget : state.target = some target) :
    Keeps svc (fun p w' => p.2 = none → Held svc p.1 w' ∧
      p.1.rollout = state.rollout ∧ p.1.targets = state.targets) (beginStage svc state target) w := by
  unfold beginStage
  split
  · exact .pure fun h => by cases h
  rename_i artifact hartifact
  refine .bind fetch_safe fun a w1 hsame => ?_
  rcases a with e | u
  · exact .pure fun h => by cases h
  have hvalid := newOperation_valid h.valid hnode htarget hartifact
  have hnext := (h.undisturbed hsame.1).operation (newOperation svc.sum256 state target artifact)
    hvalid
  exact persist_bind hnext (fun _ _ _ => .pure fun h => by cases h)
    fun w2 _ hheld => confirmStage_safe hheld hvalid rfl

section

variable (h : Going svc target state issued w)
  (hnode : AtNode state.rollout node) (hstate : node.state = .pending)
include h hnode hstate

/-- The turn at a pending node, once there is an operation for it. -/
theorem turnStaged_safe : Keeps svc (After svc target) (turnStaged state nodeID issued) w := by
  unfold turnStaged
  split
  · exact ended_safe
  · exact act_safe h hnode (.inl hstate)

theorem turnPending_safe :
    Keeps svc (After svc target) (turnPending svc state target node issued) w := by
  unfold turnPending
  split
  · exact saveEnded_safe (h.held.move (nextAction_move h.status hnode (.inl hstate)).1)
  split
  · exact turnStaged_safe h hnode hstate
  refine .bind (beginStage_safe h.held hnode h.target) fun p w' hok => ?_
  obtain ⟨state', e⟩ := p
  cases e with
  | some e => exact ended_safe
  | none =>
    obtain ⟨hheld, hrollout, htargets⟩ := hok rfl
    have hgoing : Going svc target state' issued w' := by
      refine ⟨hheld, by rw [hrollout]; exact h.status, ?_, fun _ node' hnode' hrolling => ?_⟩
      · unfold State.target
        rw [hrollout, htargets]
        exact h.target
      rw [hrollout] at hnode'
      obtain rfl := mem_unique hnode hnode'
      rw [hstate] at hrolling
      cases hrolling
    exact turnStaged_safe hgoing (by rw [hrollout]; exact hnode) hstate

end

/-! ## Installing and rolling back -/

/-- The coordinator is the last node. -/
theorem coordinator_last {n i : Nat} (h : validRoles nodes n) (hnode : nodes[i]? = some node)
    (hrole : node.role = .coordinator) : i + 1 = nodes.length := by
  induction nodes generalizing n i with
  | nil => simp at hnode
  | cons first rest ih =>
    simp only [validRoles] at h
    cases i with
    | zero =>
      obtain rfl : first = node := by simpa using hnode
      rw [hrole] at h
      simp only [and_eq_true, List.isEmpty_iff] at h
      rw [h.1]
      rfl
    | succ i =>
      have hrest : ∃ n, validRoles rest n := by
        split at h
        · exact ⟨_, (Bool.and_eq_true_iff.mp h).2⟩
        · exact ⟨_, (Bool.and_eq_true_iff.mp h).2⟩
        · cases h
      obtain ⟨n', hrest⟩ := hrest
      rw [length_cons, ih hrest hnode]

/-- What the file shows when the current node is installed. -/
theorem Held.installable {request : InstallRequest} (h : Held svc state w)
    (hnode : AtNode state.rollout node) (hid : request.nodeID = node.id)
    (hstaged : state.staged node.id = some request.stage) : Installable request w.file := by
  obtain ⟨f, hf, hequal⟩ := h.file
  obtain ⟨-, hrollout, hoperations⟩ := deepEqual_parts hequal
  refine ⟨f, node, hf, ?_, hid.symm, ?_, fun hrole other hother hexecutor => ?_⟩
  · rw [hrollout]
    exact mem_of_getElem? hnode
  · unfold State.staged at hstaged ⊢
    rw [hid, hoperations]
    exact hstaged
  rw [hrollout] at hother
  obtain ⟨i, hi⟩ := mem_iff_getElem?.mp hother
  have hlt := (getElem?_eq_some_iff.mp hi).1
  obtain ⟨-, -, -, -, -, hroles, -⟩ := validState_parts h.valid
  have hlast := coordinator_last hroles hnode hrole
  refine (validOrder_iff.mp h.order i other hi).1 (lt_of_le_of_ne (by omega) fun hi' => ?_)
  subst hi'
  obtain rfl := mem_unique hi hnode
  rw [hrole] at hexecutor
  cases hexecutor

/-- `Install` of a node that may be installed. -/
theorem install_safe {request : InstallRequest} (hinstall : Installable request w.file) :
    Keeps svc (fun _ w' => w'.file = w.file) (install request) w := by
  refine fun hgood => ⟨hgood, fun c => ⟨?_, rfl⟩⟩
  have hcount : ∀ id, rollbacks id ((surroundings svc).perform (.install request) w c).2.trace =
      rollbacks id w.trace := fun id => List.countP_cons_of_neg (by simp [asksRollback])
  refine hgood.request (r := .install request) c hgood.order ?_ ?_
    (fun id => hcount id ▸ hgood.once id) fun id hne => ?_
  · intro state hstate
    cases hstate
  · intro request' hrequest
    obtain rfl := Request.install.inj hrequest
    exact hinstall
  rw [hcount] at hne
  exact hgood.spent id hne

/-- `Rollback` of a node that is being rolled back, for the first time. -/
theorem rollback_safe {request : RollbackRequest} (hfirst : rollbacks request.nodeID w.trace = 0)
    (hspent : ∃ f, w.file = some f ∧ Spent request.nodeID f.rollout) :
    Keeps svc (fun _ w' => w'.file = w.file) (rollback false request) w := by
  refine fun hgood => ⟨hgood, fun c => ⟨?_, rfl⟩⟩
  have hcount : ∀ id,
      rollbacks id ((surroundings svc).perform (.rollback false request) w c).2.trace =
        rollbacks id w.trace + if request.nodeID = id then 1 else 0 := by
    intro id
    refine (List.countP_cons ..).trans (congrArg _ ?_)
    exact if_congr decide_eq_true_iff rfl rfl
  refine hgood.request (r := .rollback false request) c hgood.order ?_ ?_ (fun id => ?_)
    fun id hne => ?_
  · intro state hstate
    cases hstate
  · intro request' hrequest
    cases hrequest
  · rw [hcount]
    split
    · rename_i hid
      rw [← hid, hfirst]
    · exact hgood.once id
  rw [hcount] at hne
  split at hne
  · rename_i hid
    exact hid ▸ hspent
  · exact hgood.spent id (by simpa using hne)

section

variable (h : Going svc target state issued w)
  (hnode : AtNode state.rollout node)
include h hnode

theorem turnInstalling_safe :
    Keeps svc (After svc target) (turnInstalling svc state target node issued) w := by
  unfold turnInstalling
  split
  · exact ended_safe
  rename_i receipt hstaged
  refine .bind (install_safe (h.held.installable hnode rfl hstaged)) fun a w' hfile => ?_
  split
  · exact turnApplied_safe (h.held.undisturbed hfile) h.target
  · exact scheduleRollback_safe (h.held.undisturbed hfile) h.target

theorem turnHealth_safe (hstate : node.state = .awaitingHealth) :
    Keeps svc (After svc target) (turnHealth state target node issued) w := by
  refine .bind (plain_safe (r := .probe _ _) rfl) fun answer w' hsame => ?_
  have hheld := h.held.undisturbed hsame.1
  dsimp only
  split
  · rename_i herror
    rcases recordHealth_error h.status hnode herror with ⟨hrest, -⟩ | ⟨hsteps, -⟩
    · rw [hrest]
      refine saveAgain_safe hheld.same h.status h.target fun _ node' hnode' hrolling => ?_
      obtain rfl := mem_unique hnode hnode'
      rw [hstate] at hrolling
      cases hrolling
    · exact stepAgain_safe hheld h.target (hsteps hstate)
  rcases recordHealth_move state.rollout
    (observedHealth answer target node.id state.manifest.version) with hrest | hmove
  · rw [hrest]
    exact saveEnded_safe hheld.same
  · exact saveEnded_safe (hheld.move hmove)

theorem turnRollingBack_safe (hstate : node.state = .rollingBack) :
    Keeps svc (After svc target) (turnRollingBack svc state target node issued) w := by
  unfold turnRollingBack
  split
  · exact ended_safe
  rename_i hissued
  have hspent : ∃ f, w.file = some f ∧ Spent node.id f.rollout := by
    obtain ⟨f, hf, -⟩ := h.held.file
    exact ⟨f, hf, h.held.rollout_eq hf ▸ ⟨node, mem_of_getElem? hnode, rfl, by rw [hstate]; rfl⟩⟩
  have hfirst := h.first (by simpa using hissued) node hnode hstate
  refine .bind (rollback_safe hfirst hspent) fun a w' hfile => ?_
  split
  · exact turnApplied_safe (h.held.undisturbed hfile) h.target
  · exact ended_safe

end

/-- The turn at a node whose health after the rollback is awaited. -/
theorem turnRollbackHealth_safe (h : Held svc state w) :
    Keeps svc (After svc target) (turnRollbackHealth state target node) w := by
  refine .bind (plain_safe (r := .probe _ _) rfl) fun answer w' hsame => ?_
  have hheld := h.undisturbed hsame.1
  dsimp only
  rcases recordHealth_move state.rollout
    (observedHealth answer target node.id target.node.currentVersion) with hrest | hmove
  · rw [hrest]
    exact saveEnded_safe hheld.same
  · exact saveEnded_safe (hheld.move hmove)

theorem turn_safe (h : Going svc target state issued w) :
    Keeps svc (After svc target) (turn svc state target issued) w := by
  unfold turn
  split
  · exact ended_safe
  rename_i node hnode
  split
  · exact turnPending_safe h hnode ‹_›
  · exact act_safe h hnode (.inr ‹_›)
  · exact turnInstalling_safe h hnode
  · exact turnHealth_safe h hnode ‹_›
  · exact turnRollingBack_safe h hnode ‹_›
  · exact turnRollbackHealth_safe h.held
  · exact ended_safe

/-! ## Calls -/

theorem turns_safe (fuel : Nat) (h : Going svc target state issued w) :
    Keeps svc (fun r w' => ∀ state', r = some (state', none) → Held svc state' w')
      (turns svc target fuel state issued) w := by
  induction fuel generalizing state issued w with
  | zero => exact .pure fun _ h => by cases h
  | succ fuel ih =>
    refine .bind (turn_safe h) fun r w' hafter => ?_
    cases r with
    | again state' issued' => exact ih hafter
    | ended state' e =>
      refine .pure fun state'' hr => ?_
      obtain ⟨rfl, rfl⟩ := Prod.mk.inj (some.inj hr)
      exact hafter rfl

theorem advanceCurrent_safe (fuel : Nat) (h : Held svc state w) :
    Keeps svc (fun r w' => ∀ state', r = some (state', none) → Held svc state' w')
      (advanceCurrent svc fuel state) w := by
  unfold advanceCurrent
  split
  · exact .pure fun _ h => by cases h
  rename_i target htarget
  split at htarget
  · exact turns_safe fuel ⟨h, ‹_›, htarget, fun h => by cases h⟩
  · cases htarget

theorem runLocked_safe (fuel n : Nat) (h : Held svc state w) :
    Keeps svc (fun _ _ => True) (runLocked svc fuel n state) w := by
  induction n generalizing state w with
  | zero => exact .pure trivial
  | succ n ih =>
    unfold runLocked
    split
    · exact .pure trivial
    refine .bind (advanceCurrent_safe fuel h) fun r w' hheld => ?_
    split
    · exact .pure trivial
    · exact .pure trivial
    · exact ih (hheld _ rfl)

theorem load_safe (flowID : GoString) :
    Keeps svc (fun a w' => Undisturbed w w' ∧ ∀ file, a = .ok file → w.file = file) (load flowID)
      w := by
  refine fun hgood => ⟨hgood, fun c => ?_⟩
  obtain ⟨hgood', hsame⟩ := hgood.plain (r := .load flowID) rfl c
  refine ⟨hgood', hsame, fun file hload => ?_⟩
  cases c with
  | some fault => cases hload
  | none => exact loadState_eq_ok hload

theorem loadVerified_safe (flowID : GoString) :
    Keeps svc (fun r w' => ∀ state, r = .ok state → Held svc state w')
      (loadVerified svc flowID) w := by
  unfold loadVerified
  split
  · exact .pure fun _ h => by cases h
  refine .bind (load_safe flowID) fun a w' ⟨hsame, hread⟩ => ?_
  rcases a with e | _ | state
  · exact .pure fun _ h => by cases h
  · exact .pure fun _ h => by cases h
  refine fun hgood => ⟨hgood, fun state' hstate' => ?_⟩
  obtain ⟨⟨manifest, keyID⟩, -, hchecks⟩ := bind_eq_ok.mp hstate'
  replace hchecks := of_check hchecks
  obtain ⟨hvalid, hsame'⟩ := check_eq_ok.mp hchecks
  obtain rfl := ok.inj hsame'
  have hfile := hsame.1.trans (hread _ rfl)
  obtain ⟨horder, hfixed⟩ := hgood.order state hfile
  exact ⟨by simpa using refuse_eq_ok.mp hvalid, horder, hfixed, state, hfile, deepEqual_refl state⟩

/-- A call that goes on with the verified state. -/
theorem verified_safe {f : Except Err State → Work (Option Result)}
    (herror : ∀ e, ∃ r, f (.error e) = pure r)
    (hf : ∀ state w', Held svc state w' → Keeps svc (fun _ _ => True) (f (.ok state)) w') :
    Keeps svc (fun _ _ => True) (loadVerified svc flowID >>= f) w := by
  refine .bind (loadVerified_safe flowID) fun r w' hload => ?_
  cases r with
  | error e =>
    obtain ⟨r, hr⟩ := herror e
    rw [hr]
    exact .pure trivial
  | ok state => exact hf state w' (hload state rfl)

/-- The nodes of a new rollout are pending. -/
theorem newRollout_pending {version : GoString} (h : newRollout version nodes = .ok r) :
    r.currentIndex = 0 ∧ ∀ node ∈ r.orderedNodes, node.state = .pending := by
  have hnew : ∀ (nodes : List Node) (seen : List GoString) (copied : List Node),
      newNodes nodes seen = .ok copied → ∀ node ∈ copied, node.state = .pending := by
    intro nodes
    induction nodes with
    | nil =>
      intro seen copied hcopied node hmem
      obtain rfl := ok.inj hcopied
      cases hmem
    | cons first rest ih =>
      intro seen copied hcopied node hmem
      iterate 5 replace hcopied := of_check hcopied
      obtain ⟨copied', hrest, hcons⟩ := bind_eq_ok.mp hcopied
      obtain rfl := ok.inj hcons
      rcases mem_cons.mp hmem with rfl | hmem
      · rfl
      · exact ih _ copied' hrest node hmem
  replace h := of_check h
  obtain ⟨copied, hcopied, h⟩ := bind_eq_ok.mp h
  have hr := of_check h
  obtain rfl := ok.inj hr
  refine ⟨rfl, fun node hmem => hnew nodes [] copied hcopied node ?_⟩
  rcases mem_append.mp hmem with hmem | hmem <;> exact (mem_filter.mp hmem).1

section

variable (fuel : Nat) (flowID : GoString)

theorem prepareLocked_safe (targets : List Target) :
    Keeps svc (fun r w' => ∀ state, r = .ok state → Held svc state w')
      (prepareLocked svc flowID targets) w := by
  unfold prepareLocked
  split
  · exact .pure fun _ h => by cases h
  refine .bind (load_safe flowID) fun a w1 ⟨hsame1, hread⟩ => ?_
  split
  · exact .pure fun _ h => by cases h
  · exact .pure fun _ h => by cases h
  refine .bind (plain_safe (r := .signedManifest) rfl) fun a w2 hsame2 => ?_
  split
  · exact .pure fun _ h => by cases h
  split
  · exact .pure fun _ h => by cases h
  rename_i state hstate
  -- There is no file yet.
  have hfile : w2.file = none := hsame2.1.trans (hsame1.1.trans (hread _ rfl))
  have hnext : Next svc w2 state := by
    obtain ⟨⟨manifest, keyID⟩, -, hstate⟩ := bind_eq_ok.mp hstate
    replace hstate := of_check hstate
    obtain ⟨rollout, hrollout, hstate⟩ := bind_eq_ok.mp hstate
    obtain ⟨hvalid, hstate⟩ := check_eq_ok.mp hstate
    obtain rfl := ok.inj hstate
    obtain ⟨hindex, hpending⟩ := newRollout_pending hrollout
    refine ⟨by simpa using refuse_eq_ok.mp hvalid, ?_, fun hne => absurd hfile hne, ?_⟩
    · refine validOrder_iff.mpr fun i node hnode => ⟨fun hlt => ?_, fun _ => ?_⟩
      · rw [hindex] at hlt
        cases hlt
      · exact hpending node (mem_of_getElem? hnode)
    intro f id hf
    rw [hfile] at hf
    cases hf
  exact persist_bind hnext (fun _ _ _ => .pure fun _ h => by cases h)
    fun w3 _ hheld => .pure fun state' hstate' => ok.inj hstate' ▸ hheld

theorem retried_eq_some {is : NodeState} (h : state.retried is = some (target, node)) :
    state.target = some target ∧
      state.rollout.orderedNodes[state.rollout.currentIndex]? = some node := by
  unfold State.retried at h
  split at h
  · split at h
    · split at h
      · obtain ⟨rfl, rfl⟩ := Prod.mk.inj (some.inj h)
        exact ⟨‹_›, ‹_›⟩
      · cases h
    · cases h
  · cases h

theorem retryStage_safe : Keeps svc (fun _ _ => True) (retryStage svc flowID) w := by
  refine verified_safe (fun e => ⟨_, rfl⟩) fun state w1 hheld => ?_
  dsimp only
  split
  · exact .pure trivial
  rename_i target node hretried
  obtain ⟨htarget, hnode⟩ := retried_eq_some hretried
  split
  · exact .pure trivial
  rename_i operation hoperation
  obtain ⟨hlookup, -⟩ := filter_eq_some_iff.mp hoperation
  refine .bind fetch_safe fun a w2 hsame => ?_
  rcases a with e | u
  · exact .pure trivial
  -- The operation is in the file, so that it passes its check.
  have hvalid : validOperation svc.sum256 state node.id operation := by
    have hall := hheld.valid
    simp only [validState, and_eq_true] at hall
    exact all_eq_true.mp hall.2 ⟨node.id, operation⟩ (mem_entries.mpr hlookup)
  have hid : node.id = operation.nodeID := by
    simp only [validOperation, and_eq_true, decide_eq_true_eq] at hvalid
    exact hvalid.1.1.1.1
  refine .bind (confirmStage_safe (hheld.undisturbed hsame.1) (hid ▸ hvalid) ?_)
    fun p w3 _ => .pure trivial
  rw [← hid]
  exact (target_of_valid hheld.valid hnode htarget).1.symm

theorem retryRollback_safe : Keeps svc (fun _ _ => True) (retryRollback svc flowID) w := by
  refine verified_safe (fun e => ⟨_, rfl⟩) fun state w1 hheld => ?_
  dsimp only
  split
  · exact .pure trivial
  refine .bind (plain_safe (r := .rollback true _) rfl) fun a w2 hsame => ?_
  split
  · split
    · exact .pure trivial
    rename_i r' happlied
    have hnext := (hheld.undisturbed hsame.1).move (recordApplied_steps happlied).move
    exact .bind (persist_safe hnext) fun p w3 _ => .pure trivial
  · exact .pure trivial

theorem resume_safe (availability : Availability) :
    Keeps svc (fun _ _ => True) (resume svc fuel flowID availability) w := by
  refine verified_safe (fun e => ⟨_, rfl⟩) fun state w1 hheld => ?_
  dsimp only
  split
  · exact .pure trivial
  rename_i r' hresumed
  obtain ⟨-, -, -, -, hids, -⟩ := validState_parts hheld.valid
  have hnext := hheld.move (resumed_move hids hresumed)
  exact persist_bind hnext (fun _ _ _ => .pure trivial)
    fun w2 _ hheld => runLocked_safe fuel fuel hheld

/-- Every call keeps the invariant at every point. -/
theorem call_safe (call : Call) : Keeps svc (fun _ _ => True) (call.work svc fuel flowID) w := by
  cases call with
  | prepare targets =>
    refine .bind (prepareLocked_safe flowID targets) fun r w' _ => ?_
    cases r <;> exact .pure trivial
  | start targets =>
    refine .bind (prepareLocked_safe flowID targets) fun r w' hok => ?_
    cases r with
    | error e => exact .pure trivial
    | ok state => exact runLocked_safe fuel fuel (hok state rfl)
  | advance =>
    refine verified_safe (fun e => ⟨_, rfl⟩) fun state w' hheld => ?_
    exact .bind (advanceCurrent_safe fuel hheld) fun _ w'' _ => .pure trivial
  | run =>
    refine verified_safe (fun e => ⟨_, rfl⟩) fun state w' hheld => ?_
    exact runLocked_safe fuel fuel hheld
  | resume availability => exact resume_safe fuel flowID availability
  | retryStage => exact retryStage_safe flowID
  | retryRollback => exact retryRollback_safe flowID

end

/-- The invariant in every run. -/
theorem good_of_reachable (h : Reachable svc flowID w) : Good svc w := by
  induction h with
  | start => exact ⟨by simp, by simp, by simp, by simp [rollbacks], by simp [rollbacks]⟩
  | call _ call fuel hreaches ih => exact (call_safe fuel flowID call ih).reaches hreaches

/-- At every point of every run of calls on a flow: in the file, the nodes before some place are updated
and those after it pending; every state that was handed to `Save` passes `validateState`; when a node
was installed, the file had the receipt for its staging, and if it was the coordinator, the executors
were updated; and each node was rolled back at most once but by `RetryRollback`. -/
theorem rollout_sequential {flowID : GoString} (h : Reachable svc flowID w) :
    (∀ f, w.file = some f → ∃ k, ∀ (i : Nat) node, f.rollout.orderedNodes[i]? = some node →
      (i < k → node.state = .updated) ∧ (k < i → node.state = .pending)) ∧
    (∀ e ∈ w.trace, ∀ request, e.request = .install request → Installable request e.file) ∧
    (∀ id, rollbacks id w.trace ≤ 1) ∧
    ∀ e ∈ w.trace, ∀ state, e.request = .save state → validateState svc.sum256 state = .ok () := by
  have hgood := good_of_reachable h
  refine ⟨fun f hf => ?_, hgood.installs, hgood.once, fun e he state hsave => ?_⟩
  · exact ⟨f.rollout.currentIndex, validOrder_iff.mp (hgood.order f hf).1⟩
  · simp [validateState, hgood.saves e he state hsave]

/-- A release for one platform, which every signed manifest is of. -/
def sampleManifest : Manifest where
  formatVersion := 1
  version := ofText "2"
  artifacts := [{
    name := ofText "bria", platform := ofText "linux", arch := ofText "arm", size := 0,
    sha256 := replicate 64 0x30 }]

/-- A service whose checksums are all zero. -/
def sampleService : Service where
  verifySignedManifest _ := .ok (sampleManifest, ofText "key")
  sum256 _ := Vector.replicate 32 0
  manifestErrors _ _ h := by cases h

/-- The coordinator as a target. -/
def sampleTarget : Target where
  node := {
    id := ofText "c", role := .coordinator, currentVersion := ofText "1", availability := .online }
  platform := ofText "linux"
  arch := ofText "arm"
  priorState := ofText "s"

/-- The coordinator and an executor, in this order. -/
def sampleTargets : List Target :=
  [sampleTarget, { sampleTarget with
    node := { sampleTarget.node with id := ofText "e", role := .executor } }]

/-- Everything succeeds but the probe of the coordinator. -/
def sampleRule : (r : Request) → (surroundings sampleService).Choice r
  | .load _ => (none : Option Fault)
  | .save _ => SaveEnd.done
  | .signedManifest => (.ok (ofText "m") : Except Fault GoString)
  | .artifact _ => (.ok (some { content := .ok [] }) : Except Fault (Option Payload))
  | .stage request => ({
      receipt := some {
        operationID := request.operationID, nodeID := request.nodeID, version := request.version,
        artifact := request.artifact, reference := ofText "r" }
      observed := []
      sawEOF := true } : Staged)
  | .install request => (some {
      operationID := request.operationID, nodeID := request.nodeID,
      runningVersion := request.targetVersion, state := request.priorState, applied := true } :
      Option InstallReceipt)
  | .rollback _ request => (some {
      operationID := request.operationID, nodeID := request.nodeID,
      runningVersion := request.targetVersion, state := request.targetState, applied := true } :
      Option InstallReceipt)
  | .probe nodeID version => (if nodeID = ofText "c" then none else some {
      health := {
        nodeID, runningVersion := version, started := true, stateReadable := true
        providersAvailable := true, coordinatorConnected := true, sessionsAvailable := true
        probeSucceeded := true }
      stateFingerprint := ofText "s" } : Option PostflightReceipt)

/-- A call under this rule. -/
def sampleCall (call : Call) (w : World) : World :=
  ((call.work sampleService 6 (ofText "f")).play (surroundings sampleService) sampleRule w).2

/-- The world after a preparation and two turns. -/
def rolledBack : World :=
  sampleCall .advance (sampleCall .advance (sampleCall (.prepare sampleTargets) {}))

/-- A rollout in which the executor is updated first, and the coordinator is installed, found
unhealthy and rolled back once. -/
theorem rolled_back_sequential :
    Reachable sampleService (ofText "f") rolledBack ∧ rollbacks (ofText "c") rolledBack.trace = 1 ∧
      (∃ f, rolledBack.file = some f ∧ f.rollout.rolloutState = .rollbackFailed ∧
        f.rollout.orderedNodes.map (·.id) = [ofText "e", ofText "c"] ∧
        ∃ k, ∀ (i : Nat) node, f.rollout.orderedNodes[i]? = some node →
          (i < k → node.state = .updated) ∧ (k < i → node.state = .pending)) ∧
      ∀ id, rollbacks id rolledBack.trace ≤ 1 := by
  have hreachable : Reachable sampleService (ofText "f") rolledBack :=
    .call (.call (.call .start (.prepare sampleTargets) 6 (runs_play ..).reaches) .advance 6
      (runs_play ..).reaches) .advance 6 (runs_play ..).reaches
  obtain ⟨f, hfile, hfailed, hnodes, hcount⟩ :
      ∃ f, rolledBack.file = some f ∧ f.rollout.rolloutState = .rollbackFailed ∧
        f.rollout.orderedNodes.map (·.id) = [ofText "e", ofText "c"] ∧
        rollbacks (ofText "c") rolledBack.trace = 1 :=
    ⟨_, rfl, rfl, rfl, rfl⟩
  obtain ⟨horder, -, honce, -⟩ := rollout_sequential hreachable
  exact ⟨hreachable, hcount, ⟨f, hfile, hfailed, hnodes, horder f hfile⟩, honce⟩

end Bria.UpdateFlow
