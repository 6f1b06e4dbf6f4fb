import Bria.UpdateFlow.Sequence

/-!
# How long an advance takes

A turn of the loop of `advanceCurrent` that does not end the loop leads the current node one step on,
and there are at most five such steps. So `Advance` returns (`advance_returns`).

This is so unless a probe returns the receipt of another node with the right fingerprint. `RecordHealth`
then leaves the rollout as it is, and the loop probes again, or returns `ErrRollbackFailed` while the
rollout is running (`astray_receipts`).
-/

namespace Bria.UpdateFlow

open Go Update Program

variable {svc : Service} {state : State} {w w' : World} {target : Target} {node : Node}
  {issued : Bool} {α : Type} {r : Rollout} {file : Option State} {before : NodeState} {fuel : Nat}

/-! ## Receipts that go astray -/

/-- The receipt of another node, with the fingerprint that is expected of the node that is probed. -/
def Entry.Stray : Entry → Prop
  | ⟨.probe nodeID _, answer, file⟩ =>
    ∃ (receipt : PostflightReceipt) (f : State) (target : Target), answer = some receipt ∧
      file = some f ∧ f.target = some target ∧ receipt.stateFingerprint = target.priorState ∧
      receipt.health.nodeID ≠ nodeID
  | _ => False

/-- A receipt has gone astray. -/
def Astray (w : World) : Prop := ∃ e ∈ w.trace, e.Stray

/-- It has gone astray for good. -/
theorem Astray.safe (h : Astray w) (p : Work α) :
    Safe (surroundings svc) (fun _ => True) (fun _ w' => Astray w') p w := by
  induction p generalizing w with
  | ret a => exact ⟨trivial, h⟩
  | ask r next ih =>
    refine ⟨trivial, fun c => ih _ ?_⟩
    obtain ⟨e, he, hstray⟩ := h
    exact ⟨e, mem_cons_of_mem _ he, hstray⟩

/-- The end of a program, unless a receipt has gone astray. -/
abbrev Ends {α : Type} (svc : Service) (p : Work α) (w : World) (Q : α → World → Prop) : Prop :=
  Safe (surroundings svc) (fun _ => True) (fun a w' => Astray w' ∨ Q a w') p w

theorem Ends.pure {a : α} {Q : α → World → Prop} (h : Q a w) : Ends svc (pure a) w Q :=
  ⟨trivial, .inr h⟩

theorem Ends.bind {β : Type} {p : Work α} {f : α → Work β} {Q : α → World → Prop}
    {R : β → World → Prop} (hp : Ends svc p w Q) (hf : ∀ a w', Q a w' → Ends svc (f a) w' R) :
    Ends svc (p >>= f) w R := by
  refine Safe.bind hp fun a w' _ h => ?_
  rcases h with hastray | hq
  · exact (hastray.safe (f a)).mono fun _ _ h => .inl h
  · exact hf a w' hq

/-- The requests that write the file. -/
def Request.writes : Request → Bool
  | .save _ => true
  | _ => false

theorem request_ends {r : Request} (hr : r.writes = false) :
    Ends svc (Program.request r : Work (Answer r)) w
      (fun a w' => w'.file = w.file ∧ w'.trace = ⟨r, a, w.file⟩ :: w.trace) := by
  refine ⟨trivial, fun c => ⟨trivial, .inr ⟨?_, rfl⟩⟩⟩
  cases r with
  | load flowID => cases c <;> rfl
  | save state => cases hr
  | _ => rfl

/-! ## Errors -/

/-- An error that is not `ErrRollbackFailed`. -/
def Harmless (e : Err) : Prop := e.is .rollbackFailed = false

/-- The error of a fault. -/
theorem fault_harmless (fault : Fault) : Harmless fault.error := by
  cases fault <;> rfl

variable {e : Err}

/-- The checks of a manifest have their own errors. -/
theorem selectArtifact_harmless {manifest : Manifest} {platform arch : GoString} :
    Avoids .rollbackFailed (selectArtifact manifest platform arch) := by
  have hartifact : ∀ artifact, Avoids .rollbackFailed (validateArtifact artifact) := fun artifact =>
    .check rfl <| .refuse _ rfl
  have hartifacts : ∀ artifacts seen, Avoids .rollbackFailed (validateArtifacts artifacts seen) := by
    intro artifacts
    induction artifacts with
    | nil => exact fun seen => .ok ()
    | cons artifact rest ih =>
      exact fun seen => .bind (hartifact artifact) fun _ => .check rfl <| ih _
  refine .bind (.check rfl <| hartifacts _ _) fun _ => ?_
  split
  · exact .ok _
  · exact .error rfl

theorem verifyArtifact_harmless {content : Except Fault GoString} {artifact : Artifact} :
    Avoids .rollbackFailed (verifyArtifact svc.sum256 (content.mapError Fault.error) artifact) := by
  refine .bind (.check rfl <| .refuse _ rfl) fun _ => ?_
  refine .bind (.mapError ?_ fun e he => he) fun _ => .refuse _ rfl
  cases content with
  | error fault => exact .error (fault_harmless fault)
  | ok bytes => exact .ok bytes

theorem nextAction_harmless (h : r.nextAction.1 = some e) : Harmless e := by
  have hissue : ∀ node next, (r.issue node next).1 = some e → Harmless e := by
    intro node next h
    unfold Rollout.issue at h
    split at h
    · cases h
    obtain rfl := some.inj h
    rfl
  unfold Rollout.nextAction at h
  split at h
  · obtain rfl := some.inj h
    rfl
  split at h
  · exact hissue _ _ h
  · exact hissue _ _ h
  obtain rfl := some.inj h
  rfl

theorem loadState_harmless {flowID : GoString} :
    Avoids .rollbackFailed (loadState svc flowID file) := by
  unfold loadState
  split
  · exact .ok none
  split
  · exact .error rfl
  · exact .ok _

theorem performSave_harmless {saved : SaveEnd} :
    Avoids .rollbackFailed (performSave svc state saved file).1 := by
  have hvalidate : Avoids .rollbackFailed (validateState svc.sum256 state) := .refuse _ rfl
  have hreplaces : Avoids .rollbackFailed (replaces svc state file) := by
    unfold replaces
    split
    · exact .error (loadState_harmless _ ‹_›)
    · split
      · exact .ok false
      split
      · exact .error rfl
      · exact .ok true
    split
    · exact .error rfl
    · exact .ok true
  have hverify : Avoids .rollbackFailed (verifySaved svc state) := by
    unfold verifySaved
    split
    · rename_i e hload
      have hinner := loadState_harmless e hload
      exact .error hinner
    · exact .error rfl
    split
    · exact .ok ()
    · exact .error rfl
  unfold performSave
  split
  · exact .error (hvalidate _ ‹_›)
  · exact .error (fault_harmless _)
  split
  · exact .error rfl
  split
  · exact .error (hreplaces _ ‹_›)
  · exact .ok ()
  split
  · exact .error (fault_harmless _)
  · exact hverify

/-! ## Turns -/

/-- How many turns the work on a node can still take. -/
def turnsLeft : NodeState → Nat
  | .pending => 6
  | .installing => 5
  | .awaitingHealth => 4
  | .rollbackPending => 3
  | .rollingBack => 2
  | _ => 1

/-- How many requests the work on a node can still take. -/
def requestsLeft : NodeState → Nat
  | .pending => 14
  | .installing => 9
  | .awaitingHealth => 7
  | .rollbackPending => 5
  | .rollingBack => 4
  | .awaitingRollbackHealth => 2
  | _ => 0

/-- How many requests a turn makes at most before it saves the step of the node. -/
def turnRequests : NodeState → Nat
  | .pending => 4
  | .installing | .awaitingHealth | .rollingBack | .awaitingRollbackHealth => 1
  | _ => 0

/-- A step of the node pays for the turn. -/
theorem left_of_follows {next : NodeState} (h : follows before next) :
    turnsLeft next < turnsLeft before ∧
      turnRequests before + 1 + requestsLeft next ≤ requestsLeft before := by
  cases before <;> cases next <;> cases h <;> decide

/-- The turn itself is paid for. -/
theorem turnRequests_le (before : NodeState) : turnRequests before ≤ requestsLeft before := by
  cases before <;> simp [turnRequests, requestsLeft]

/-- So is a save after it, while there is work on the node. -/
theorem turnRequests_lt (h : requestsLeft before ≠ 0) :
    turnRequests before < requestsLeft before := by
  cases before <;> first | decide | exact absurd rfl h

/-- The file shows the rollout and the targets of the state. -/
def Shows (state : State) (w : World) : Prop :=
  ∃ f, w.file = some f ∧ f.rollout = state.rollout ∧ f.targets = state.targets

/-- The state that the loop goes on with, which the file shows. -/
structure Ready (target : Target) (state : State) (w : World) : Prop where
  status : state.rollout.rolloutState = .running
  target : state.target = some target
  file : Shows state w

/-- The file has stayed. -/
theorem Ready.undisturbed (h : Ready target state w) (hfile : w'.file = w.file) :
    Ready target state w' := by
  obtain ⟨f, hf, hsame⟩ := h.file
  exact ⟨h.status, h.target, f, hfile.trans hf, hsame⟩

/-- An error that is returned is not `ErrRollbackFailed`, or the file shows that status. -/
def Faithful (e : Option Err) (w : World) : Prop :=
  ∀ e', e = some e' → Harmless e' ∨ ∃ f, w.file = some f ∧ f.rollout.rolloutState = .rollbackFailed

/-- At most so many requests were made. -/
abbrev Within (w : World) (requests : Nat) (w' : World) : Prop :=
  w'.trace.length ≤ w.trace.length + requests

/-- What a turn takes of the turns and requests that are left. -/
def Taken (target : Target) (before : NodeState) (w : World) (turn : Turn) (w' : World) : Prop :=
  match turn with
  | .again state _ => Ready target state w' ∧
    ∃ node, state.rollout.orderedNodes[state.rollout.currentIndex]? = some node ∧
      turnsLeft node.state < turnsLeft before ∧
      w'.trace.length + requestsLeft node.state ≤ w.trace.length + requestsLeft before
  | .ended _ e => Within w (requestsLeft before) w' ∧ Faithful e w'

theorem save_ends (state : State) :
    Ends svc (save state) w (fun (a : Except Err Unit) w' =>
      w'.trace.length = w.trace.length + 1 ∧ Avoids .rollbackFailed a ∧
      (a = .ok () → Shows state w')) := by
  refine ⟨trivial, fun saved => ⟨trivial, .inr ⟨rfl, performSave_harmless, ?_⟩⟩⟩
  intro hok
  obtain ⟨f, hf, hequal⟩ := (performSave_file svc state saved w.file).2 hok
  refine ⟨f, hf, (deepEqual_parts hequal).2.1, ?_⟩
  simp only [State.deepEqual, and_eq_true, decide_eq_true_eq] at hequal
  exact hequal.1.1.1.2

theorem persist_ends (state : State) :
    Ends svc (persist state) w (fun p w' => Within w 1 w' ∧
      (∀ e, p.2 = some e → Harmless e) ∧ (p.2 = none →
        p.1 = { state with revision := state.revision + 1 } ∧ Shows state w')) := by
  unfold persist
  split
  · refine .pure ⟨le_succ _, fun e he => ?_, fun h => by cases h⟩
    obtain rfl := some.inj he
    rfl
  refine .bind (save_ends _) fun a w' ⟨hlength, herror, hok⟩ => ?_
  cases a with
  | error e =>
    refine .pure ⟨Nat.le_of_eq hlength, fun e' he' => ?_, fun h => by cases h⟩
    exact herror e' (by rw [some.inj he'])
  | ok u =>
    exact ⟨trivial, .inr ⟨Nat.le_of_eq hlength, fun e he => (by cases he), fun _ => ⟨rfl, hok rfl⟩⟩⟩

variable {w0 : World}

/-- A branch that saves the state after a step and goes on. -/
theorem saveAgain_ends {r' : Rollout} (htarget : state.target = some target)
    (hsteps : Steps state.rollout r') (hnode : AtNode state.rollout node)
    (hlength : Within w0 (turnRequests node.state) w) :
    Ends svc (saveAgain (state.withRollout r') issued) w (Taken target node.state w0) := by
  obtain ⟨hstatus, hindex, node1, next, hnode1, hfollows, hnext⟩ := hsteps.same
  obtain rfl := mem_unique hnode hnode1
  obtain ⟨hturns, hcost⟩ := left_of_follows hfollows
  refine .bind (persist_ends _) fun p w' ⟨htrace, herror, hok⟩ => ?_
  obtain ⟨state', e⟩ := p
  cases e with
  | some e =>
    refine .pure ⟨by omega, fun e' he' => .inl ?_⟩
    exact herror e' he'
  | none =>
    obtain ⟨rfl, hfile⟩ := hok rfl
    refine .pure ⟨⟨hstatus, ?_, hfile⟩, _, hnext, hturns, by dsimp only; omega⟩
    unfold State.target State.withRollout at *
    rw [← htarget]
    exact congrArg _ hindex

theorem saveEnded_ends {result : Option Err}
    (hlength : Within w0 (turnRequests before) w) (hleft : requestsLeft before ≠ 0)
    (hresult : ∀ e, result = some e → Harmless e ∨ state.rollout.rolloutState = .rollbackFailed) :
    Ends svc (saveEnded state result) w (Taken target before w0) := by
  have hroom := turnRequests_lt hleft
  refine .bind (persist_ends _) fun p w' ⟨htrace, herror, hok⟩ => ?_
  obtain ⟨state', e⟩ := p
  cases e with
  | some e =>
    refine .pure ⟨by omega, fun e' he' => .inl ?_⟩
    exact herror e' he'
  | none =>
    obtain ⟨rfl, f, hf, hrollout, -⟩ := hok rfl
    refine .pure ⟨by omega, fun e he => ?_⟩
    exact (hresult e he).imp_right fun hfailed => ⟨f, hf, by rw [hrollout]; exact hfailed⟩

theorem ended_ends (hlength : Within w0 (turnRequests before) w) (he : Harmless e) :
    Ends svc (pure (.ended state (some e)) : Work Turn) w (Taken target before w0) :=
  ⟨trivial, .inr ⟨le_trans hlength (Nat.add_le_add_left (turnRequests_le before) _),
    fun e' he' => .inl (by rwa [← some.inj he'])⟩⟩

theorem act_ends {issued' : Bool} (h : Ready target state w) (hnode : AtNode state.rollout node)
    (hstate : node.state = .pending ∨ node.state = .rollbackPending)
    (hlength : Within w0 (turnRequests node.state) w) :
    Ends svc (act state issued') w (Taken target node.state w0) := by
  obtain ⟨-, hsteps⟩ := nextAction_move h.status hnode hstate
  have hleft : requestsLeft node.state ≠ 0 := by
    rcases hstate with hstate | hstate <;> rw [hstate] <;> decide
  unfold act
  split
  · rename_i e r' hnext
    refine saveEnded_ends hlength hleft fun e' he' =>
      .inl (nextAction_harmless (r := state.rollout) ?_)
    rw [hnext, he']
  rename_i r' hnext
  rw [hnext] at hsteps
  exact saveAgain_ends h.target (hsteps rfl) hnode hlength

variable {nodeID : GoString}

theorem turnApplied_ends (htarget : state.target = some target) (hnode : AtNode state.rollout node)
    (hlength : Within w0 (turnRequests node.state) w) :
    Ends svc (turnApplied state nodeID issued) w (Taken target node.state w0) := by
  unfold turnApplied
  split
  · rename_i e r' happlied
    refine ended_ends hlength ?_
    unfold Rollout.recordApplied at happlied
    split at happlied
    · obtain rfl := some.inj (Prod.mk.inj happlied).1
      rfl
    split at happlied
    · cases happlied
    · cases happlied
    obtain rfl := some.inj (Prod.mk.inj happlied).1
    rfl
  · exact saveAgain_ends htarget (recordApplied_steps ‹_›) hnode hlength

/-- `scheduleRollback` of a node that is being installed. -/
theorem scheduleRollback_ends (h : Ready target state w) (hnode : AtNode state.rollout node)
    (hstate : node.state = .installing) (hlength : Within w0 (turnRequests node.state) w) :
    Ends svc (scheduleRollback state nodeID issued) w (Taken target node.state w0) := by
  unfold scheduleRollback
  split
  · rename_i e r' hfailure
    refine ended_ends hlength ?_
    unfold Rollout.recordApplyFailure at hfailure
    split at hfailure
    · obtain rfl := some.inj (Prod.mk.inj hfailure).1
      rfl
    rename_i node1 hcurrent
    obtain ⟨-, hnode1⟩ := currentNode_eq_some hcurrent
    obtain rfl := mem_unique hnode hnode1
    rw [hstate] at hfailure
    cases hfailure
  · exact saveAgain_ends h.target (recordApplyFailure_steps ‹_›) hnode hlength

theorem fetch_ends (artifact : Artifact) :
    Ends svc (fetch svc artifact) w (fun a w' => w'.file = w.file ∧
      w'.trace.length = w.trace.length + 1 ∧ Avoids .rollbackFailed a) := by
  refine .bind (request_ends (r := .artifact artifact) rfl) fun a w' ⟨hfile, htrace⟩ => ?_
  have hlength : w'.trace.length = w.trace.length + 1 := by rw [htrace]; rfl
  rcases a with fault | _ | payload
  · exact .pure ⟨hfile, hlength, .error (fault_harmless fault)⟩
  · exact .pure ⟨hfile, hlength, .error rfl⟩
  dsimp only
  split
  · exact .pure ⟨hfile, hlength, .error (verifyArtifact_harmless _ ‹_›)⟩
  refine .pure ⟨hfile, hlength, ?_⟩
  split
  · exact .error (fault_harmless _)
  · exact .ok ()

theorem stagePayload_ends (target : Target) (operation : StageOperation) :
    Ends svc (stagePayload svc target operation) w
      (fun _ w' => w'.trace.length = w.trace.length + 1) := by
  refine .bind (request_ends (r := .stage _) rfl) fun staged w' h => ?_
  have hlength : w'.trace.length = w.trace.length + 1 := by rw [h.2]; rfl
  exact .pure hlength

/-- What `beginStage` leaves. -/
def Begun (state : State) (w : World) (p : State × Option Err) (w' : World) : Prop :=
  Within w 4 w' ∧ (∀ e, p.2 = some e → Harmless e) ∧
    (p.2 = none → p.1.rollout = state.rollout ∧ p.1.targets = state.targets ∧ Shows state w')

theorem beginStage_ends (state : State) (target : Target) :
    Ends svc (beginStage svc state target) w (Begun state w) := by
  have hfail : ∀ {w' : World} {state' : State} {e : Err}, Within w 4 w' → Harmless e →
      Ends svc (pure (state', some e) : Work (State × Option Err)) w' (Begun state w) :=
    fun hlength he => ⟨trivial, .inr ⟨hlength, fun e' he' => some.inj he' ▸ he,
      fun h => by cases h⟩⟩
  unfold beginStage
  split
  · exact hfail (Nat.le_add_right _ _) (selectArtifact_harmless _ ‹_›)
  refine .bind (fetch_ends _) fun a w1 ⟨_, hlength1, herror1⟩ => ?_
  rcases a with e | u
  · exact hfail (by omega) (herror1 e rfl)
  refine .bind (persist_ends _) fun p w2 ⟨hlength2, herror2, hok2⟩ => ?_
  obtain ⟨state', e⟩ := p
  cases e with
  | some e => exact hfail (by omega) (herror2 e rfl)
  | none =>
    obtain ⟨rfl, -⟩ := hok2 rfl
    -- The operation is started in the file; now the payload is staged.
    refine .bind (stagePayload_ends target _) fun receipt w3 hlength3 => ?_
    rcases receipt with _ | receipt
    · exact hfail (by omega) rfl
    refine (persist_ends _).mono fun p w4 h => h.imp_right ?_
    rintro ⟨hlength4, herror4, hok4⟩
    refine ⟨by omega, herror4, fun hnone => ?_⟩
    obtain ⟨hp, hfile⟩ := hok4 hnone
    exact ⟨by rw [hp]; rfl, by rw [hp]; rfl, hfile⟩

/-- A receipt of another node, for a node that is probed, has gone astray. -/
theorem astray_of_receipt {answer : Option PostflightReceipt} {version : GoString}
    (h : Ready target state w)
    (htrace : w'.trace = ⟨.probe nodeID version, answer, w.file⟩ :: w.trace)
    (hother : (observedHealth answer target nodeID version).nodeID ≠ nodeID) : Astray w' := by
  unfold observedHealth at hother
  split at hother
  · rename_i receipt hreceipt
    obtain ⟨hanswer, hfingerprint⟩ := filter_eq_some_iff.mp hreceipt
    obtain ⟨f, hf, hrollout, htargets⟩ := h.file
    refine ⟨⟨.probe nodeID version, answer, w.file⟩, htrace ▸ mem_cons_self, receipt, f, target,
      hanswer, hf, ?_, by simpa using hfingerprint, hother⟩
    unfold State.target
    rw [hrollout, htargets]
    exact h.target
  · exact absurd rfl hother

/-- One request has been made. -/
theorem length_of_asked {entry : Entry} (htrace : w'.trace = entry :: w.trace)
    (hturn : turnRequests before = 1) : Within w (turnRequests before) w' := by
  rw [Within, htrace, hturn]
  rfl

section Turn

variable (h : Ready target state w) (hnode : AtNode state.rollout node)

include h hnode

/-- The turn at a pending node, once there is an operation for it. -/
theorem turnStaged_ends (hstate : node.state = .pending)
    (hlength : Within w0 (turnRequests node.state) w) :
    Ends svc (turnStaged state nodeID issued) w (Taken target node.state w0) := by
  unfold turnStaged
  split
  · exact ended_ends hlength rfl
  · exact act_ends h hnode (.inl hstate) hlength

theorem turnPending_ends (hstate : node.state = .pending) :
    Ends svc (turnPending svc state target node issued) w (Taken target node.state w) := by
  unfold turnPending
  split
  · refine saveEnded_ends (Nat.le_add_right _ _) ?_ fun e he => .inl (nextAction_harmless he)
    rw [hstate]
    decide
  split
  · exact turnStaged_ends h hnode hstate (Nat.le_add_right _ _)
  refine .bind (beginStage_ends state target) fun p w' ⟨hlength, herror, hok⟩ => ?_
  have hlength : Within w (turnRequests node.state) w' := by
    rw [hstate]
    exact hlength
  obtain ⟨state', e⟩ := p
  cases e with
  | some e => exact ended_ends hlength (herror e rfl)
  | none =>
    obtain ⟨hrollout, htargets, f, hf, hfrollout, hftargets⟩ := hok rfl
    have hready : Ready target state' w' := by
      refine ⟨by rw [hrollout]; exact h.status, ?_, f, hf, hfrollout.trans hrollout.symm,
        hftargets.trans htargets.symm⟩
      unfold State.target
      rw [hrollout, htargets]
      exact h.target
    exact turnStaged_ends hready (by rw [hrollout]; exact hnode) hstate hlength

theorem turnInstalling_ends (hstate : node.state = .installing) :
    Ends svc (turnInstalling svc state target node issued) w (Taken target node.state w) := by
  unfold turnInstalling
  split
  · exact ended_ends (Nat.le_add_right _ _) rfl
  refine .bind (request_ends (r := .install _) rfl) fun answer w' ⟨hfile, htrace⟩ => ?_
  have hlength := length_of_asked htrace (congrArg turnRequests hstate)
  split
  · exact turnApplied_ends h.target hnode hlength
  · exact scheduleRollback_ends (h.undisturbed hfile) hnode hstate hlength

theorem turnHealth_ends (hstate : node.state = .awaitingHealth) :
    Ends svc (turnHealth state target node issued) w (Taken target node.state w) := by
  refine .bind (request_ends (r := .probe _ _) rfl) fun answer w' ⟨hfile, htrace⟩ => ?_
  have hlength := length_of_asked htrace (congrArg turnRequests hstate)
  dsimp only
  split
  · rename_i herror
    rcases recordHealth_error h.status hnode herror with ⟨-, hother⟩ | ⟨hsteps, -⟩
    · have hastray := astray_of_receipt h htrace hother
      exact (hastray.safe _).mono fun _ _ h => .inl h
    · exact saveAgain_ends h.target (hsteps hstate) hnode hlength
  refine saveEnded_ends hlength ?_ fun e he => by cases he
  rw [hstate]
  decide

theorem turnRollingBack_ends (hstate : node.state = .rollingBack) :
    Ends svc (turnRollingBack svc state target node issued) w (Taken target node.state w) := by
  unfold turnRollingBack
  split
  · exact ended_ends (Nat.le_add_right _ _) rfl
  refine .bind (request_ends (r := .rollback false _) rfl) fun answer w' ⟨_, htrace⟩ => ?_
  have hlength := length_of_asked htrace (congrArg turnRequests hstate)
  split
  · exact turnApplied_ends h.target hnode hlength
  · exact ended_ends hlength rfl

/-- The turn at a node whose health after the rollback is awaited. -/
theorem turnRollbackHealth_ends (hstate : node.state = .awaitingRollbackHealth) :
    Ends svc (turnRollbackHealth state target node) w (Taken target node.state w) := by
  refine .bind (request_ends (r := .probe _ _) rfl) fun answer w' ⟨_, htrace⟩ => ?_
  have hlength := length_of_asked htrace (congrArg turnRequests hstate)
  have hleft : requestsLeft node.state ≠ 0 := by
    rw [hstate]
    decide
  dsimp only
  split
  · rename_i herror
    rcases recordHealth_error h.status hnode herror with ⟨-, hother⟩ | ⟨-, hfailed⟩
    · have hastray := astray_of_receipt h htrace hother
      exact (hastray.safe _).mono fun _ _ h => .inl h
    · exact saveEnded_ends hlength hleft fun e he => .inr (hfailed hstate)
  refine saveEnded_ends hlength hleft fun e he => .inl ?_
  obtain rfl := some.inj he
  rfl

theorem turn_ends : Ends svc (turn svc state target issued) w (Taken target node.state w) := by
  unfold turn
  rw [hnode]
  dsimp only
  split
  · exact turnPending_ends h hnode ‹_›
  · exact act_ends h hnode (.inr ‹_›) (Nat.le_add_right _ _)
  · exact turnInstalling_ends h hnode ‹_›
  · exact turnHealth_ends h hnode ‹_›
  · exact turnRollingBack_ends h hnode ‹_›
  · exact turnRollbackHealth_ends h hnode ‹_›
  · exact ended_ends (Nat.le_add_right _ _) rfl

end Turn

/-! ## Advance -/

/-- The loop of `advanceCurrent` returns if there is fuel for the turns that are left. -/
theorem turns_ends (h : Ready target state w) (hnode : AtNode state.rollout node)
    (hfuel : turnsLeft node.state ≤ fuel) :
    Ends svc (turns svc target fuel state issued) w (fun r w' => ∃ state' e, r = some (state', e) ∧
      Within w (requestsLeft node.state) w' ∧ Faithful e w') := by
  induction fuel generalizing state issued w node with
  | zero => cases hstate : node.state <;> rw [hstate] at hfuel <;> cases hfuel
  | succ fuel ih =>
    refine .bind (turn_ends h hnode) fun r w1 htaken => ?_
    cases r with
    | again state1 issued1 =>
      obtain ⟨hready, node1, hnode1, hturns, hrequests⟩ := htaken
      refine (ih hready hnode1 (by omega)).mono fun r w2 h => h.imp_right ?_
      rintro ⟨state', e, hr, hlength, hfaithful⟩
      exact ⟨state', e, hr, by omega, hfaithful⟩
    | ended state1 e =>
      obtain ⟨hlength, hfaithful⟩ := htaken
      exact .pure ⟨state1, e, rfl, hlength, hfaithful⟩

theorem loadVerified_ends (flowID : GoString) :
    Ends svc (loadVerified svc flowID) w (fun r w' => Within w 1 w' ∧
      Avoids .rollbackFailed r ∧
      ∀ state, r = .ok state → w'.file = some state ∧ validState svc.sum256 state) := by
  have hload : Ends svc (load flowID) w (fun (a : Except Err (Option State)) w' =>
      w'.trace.length = w.trace.length + 1 ∧ Avoids .rollbackFailed a ∧
      ∀ state, a = .ok (some state) → w'.file = some state) := by
    refine ⟨trivial, fun c => ⟨trivial, .inr ⟨rfl, ?_, fun state hstate => ?_⟩⟩⟩
    · cases c with
      | some fault => exact .error (fault_harmless fault)
      | none => exact loadState_harmless
    cases c with
    | some fault => cases hstate
    | none => exact loadState_eq_ok hstate
  unfold loadVerified
  split
  · exact .pure ⟨le_succ _, .error rfl, fun state h => by cases h⟩
  refine .bind hload fun a w' hread => ?_
  obtain ⟨hlength, herror, hread⟩ := hread
  have hlength := Nat.le_of_eq hlength
  rcases a with e | _ | state
  · exact .pure ⟨hlength, .error (herror e rfl), fun state h => by cases h⟩
  · exact .pure ⟨hlength, .error rfl, fun state h => by cases h⟩
  refine .pure ⟨hlength, ?_, fun state' hstate' => ?_⟩
  · refine .bind (svc.manifestErrors _) fun _ => ?_
    exact .check rfl <| .check rfl <| .ok state
  obtain ⟨⟨manifest, keyID⟩, -, hchecks⟩ := bind_eq_ok.mp hstate'
  replace hchecks := of_check hchecks
  obtain ⟨hvalid, hsame⟩ := check_eq_ok.mp hchecks
  obtain rfl := ok.inj hsame
  exact ⟨hread _ rfl, by simpa using refuse_eq_ok.mp hvalid⟩

/-- `advanceCurrent` returns after at most six turns. -/
theorem advanceCurrent_ends (hfuel : 6 ≤ fuel) (hfile : w.file = some state)
    (hvalid : validState svc.sum256 state) :
    Ends svc (advanceCurrent svc fuel state) w (fun r w' => ∃ state' e, r = some (state', e) ∧
      Within w 14 w' ∧ Faithful e w') := by
  unfold advanceCurrent
  split
  · refine .pure ⟨state, _, rfl, Nat.le_add_right _ _, fun e he => .inl ?_⟩
    obtain rfl := some.inj he
    rfl
  rename_i target htarget
  split at htarget
  · rename_i hstatus
    obtain ⟨-, hlength, -⟩ := validState_parts hvalid
    have hlt := (getElem?_eq_some_iff.mp htarget).1
    have hnode := getElem?_eq_getElem (l := state.rollout.orderedNodes)
      (i := state.rollout.currentIndex) (by omega)
    have hready : Ready target state w := ⟨hstatus, htarget, state, hfile, rfl, rfl⟩
    have hleft : ∀ s, turnsLeft s ≤ 6 ∧ requestsLeft s ≤ 14 := by
      intro s
      cases s <;> simp [turnsLeft, requestsLeft]
    obtain ⟨hturns, hrequests⟩ := hleft state.rollout.orderedNodes[state.rollout.currentIndex].state
    refine (turns_ends hready hnode (le_trans hturns hfuel)).mono fun r w' h => h.imp_right ?_
    rintro ⟨state', e, hr, hlength, hfaithful⟩
    exact ⟨state', e, hr, by omega, hfaithful⟩
  · cases htarget

/-- `Advance` on any saved state, if every receipt that a probe returns with the expected fingerprint
is one of the node that was probed: it returns, it makes at most fifteen requests, and it returns
`ErrRollbackFailed` only if that is the status in the file. -/
theorem advance_returns {fuel : Nat} {flowID : GoString} {file : Option State} {r : Option Result}
    (hfuel : 6 ≤ fuel) (hrun : Runs (surroundings svc) (advance svc fuel flowID) { file } r w)
    (haddressed : ∀ e ∈ w.trace, ¬e.Stray) :
    ∃ result, r = some result ∧ w.trace.length ≤ 15 ∧
      ∀ e, result.err = some e → e.is .rollbackFailed →
        ∃ f, w.file = some f ∧ f.rollout.rolloutState = .rollbackFailed := by
  have hends : Ends svc (advance svc fuel flowID) { file } (fun r w' =>
      ∃ result, r = some result ∧ w'.trace.length ≤ 15 ∧ Faithful result.err w') := by
    refine .bind (loadVerified_ends flowID) fun r w1 ⟨hlength, herror, hstate⟩ => ?_
    have hlength : w1.trace.length ≤ 1 := hlength
    rcases r with e | state
    · refine .pure ⟨_, rfl, by omega, fun e' he' => .inl ?_⟩
      obtain rfl := some.inj he'
      exact herror _ rfl
    obtain ⟨hfile, hvalid⟩ := hstate state rfl
    refine .bind (advanceCurrent_ends hfuel hfile hvalid) fun r w2 h => ?_
    obtain ⟨state', e, rfl, hlength', hfaithful⟩ := h
    exact .pure ⟨_, rfl, by omega, hfaithful⟩
  rcases Safe.runs hends hrun with ⟨e, he, hstray⟩ | ⟨result, hr, hlength, hfaithful⟩
  · exact absurd hstray (haddressed e he)
  refine ⟨result, hr, hlength, fun e he his => ?_⟩
  rcases hfaithful e he with hharmless | hfailed
  · rw [Harmless, his] at hharmless
    cases hharmless
  · exact hfailed

/-- No receipt goes astray where a probe returns only one of its own node. -/
theorem sampleRule_addressed (p : Work α) (h : ∀ e ∈ w.trace, ¬e.Stray) :
    ∀ e ∈ (p.play (surroundings sampleService) sampleRule w).2.trace, ¬e.Stray := by
  induction p generalizing w with
  | ret a => exact h
  | ask r next ih =>
    refine ih _ fun e he => ?_
    rcases mem_cons.mp he with rfl | he
    · cases r with
      | probe nodeID version =>
        rintro ⟨receipt, -, -, hanswer, -, -, -, hother⟩
        obtain rfl := some.inj (Option.ite_none_left_eq_some.mp hanswer).2
        exact hother rfl
      | _ => exact id
    · exact h e he

/-- A node that is installed, found unhealthy and rolled back in one call. -/
theorem advance_returns_rolled_back :
    ∃ w, Runs (surroundings sampleService) (advance sampleService 6 (ofText "f"))
        { file := (sampleCall (.prepare [sampleTarget]) {}).file }
        ((advance sampleService 6 (ofText "f")).play (surroundings sampleService) sampleRule
          { file := (sampleCall (.prepare [sampleTarget]) {}).file }).1 w ∧
      w.trace.length ≤ 15 ∧ ∃ f, w.file = some f ∧ f.rollout.rolloutState = .rollbackFailed := by
  have hrun := runs_play (surroundings sampleService) sampleRule
    (advance sampleService 6 (ofText "f"))
    { file := (sampleCall (.prepare [sampleTarget]) {}).file }
  obtain ⟨state, hr⟩ : ∃ state, ((advance sampleService 6 (ofText "f")).play
      (surroundings sampleService) sampleRule
      { file := (sampleCall (.prepare [sampleTarget]) {}).file }).1 =
        some ⟨some state, some (err .rollbackFailed)⟩ := ⟨_, rfl⟩
  obtain ⟨result, hresult, hlength, hfailed⟩ := advance_returns (Nat.le_refl 6) hrun
    (sampleRule_addressed _ fun e he => nomatch he)
  rw [hr] at hresult
  obtain rfl := some.inj hresult
  exact ⟨_, hrun, hlength, hfailed _ rfl rfl⟩

/-! ## Receipts of another node -/

/-- A rollout of one node, which is left in a state. -/
def strandedRollout (state : NodeState) : Rollout where
  targetVersion := ofText "2"
  rolloutState := .running
  orderedNodes := [{ sampleTarget.node with state }]

/-- The flow of this rollout. -/
def strandedState (state : NodeState) (revision : Nat) : State where
  revision
  flowID := ofText "f"
  signedManifest := ofText "m"
  verifiedKeyID := ofText "key"
  manifest := sampleManifest
  rollout := strandedRollout state
  targets := [sampleTarget]
  phase := derivePhase (strandedRollout state)

/-- A receipt of another node, with the fingerprint of this one. -/
def strayReceipt : PostflightReceipt where
  health := { nodeID := ofText "d", runningVersion := ofText "2" }
  stateFingerprint := ofText "s"

/-- Every save succeeds, and every probe answers with that receipt. -/
def strayRule : (r : Request) → (surroundings sampleService).Choice r
  | .probe _ _ => some strayReceipt
  | r => sampleRule r

/-- It waits for the receipt of its installation. -/
abbrev stranded (revision : Nat) : State := strandedState .awaitingHealth revision

/-- The stranded state is saved again with the next revision. -/
theorem performSave_stranded (revision : Nat) (h : 0 < revision) :
    performSave sampleService (stranded (revision + 1)) .done (some (stranded revision)) =
      (.ok (), some (stranded (revision + 1))) := by
  have hload : ∀ revision, 0 < revision → loadState sampleService (ofText "f")
      (some (stranded revision)) = .ok (some (stranded revision)) := by
    intro revision h
    have hvalid : validState sampleService.sum256 (stranded revision) := rfl
    have hid : (stranded revision).flowID = ofText "f" := rfl
    have hrevision : (stranded revision).revision ≠ 0 := by
      change revision ≠ 0
      omega
    simp [loadState, hvalid, hid, hrevision]
  have hreplaces : replaces sampleService (stranded (revision + 1))
      (some (stranded revision)) = .ok true := by
    simp only [replaces]
    rw [show (stranded (revision + 1)).flowID = ofText "f" from rfl, hload revision h]
    simp [stranded, strandedState]
  have hverify : verifySaved sampleService (stranded (revision + 1)) = .ok () := by
    simp only [verifySaved]
    rw [show (stranded (revision + 1)).flowID = ofText "f" from rfl,
      show (stranded (revision + 1)).json = stranded (revision + 1) from rfl, hload _ (by omega)]
    simp only [deepEqual_refl, if_true]
  have hvalidate : validateState sampleService.sum256 (stranded (revision + 1)) = .ok () := rfl
  have hrevision : (stranded (revision + 1)).revision ≠ 0 := Nat.succ_ne_zero revision
  -- `simp` would first prove an equation for each case of `performSave`, which is slow.
  unfold performSave
  simp only [hvalidate, hreplaces, hverify, if_neg hrevision]
  rfl

variable {revision : Nat}

theorem saveAgain_stranded (hpositive : 0 < revision) (hlimit : revision < maxUint64)
    (trace : List Entry) (issued : Bool) :
    ∃ trace', trace'.length = trace.length + 1 ∧
      Runs (surroundings sampleService) (saveAgain (stranded revision) issued)
        ⟨some (stranded revision), trace⟩ (.again (stranded (revision + 1)) issued)
        ⟨some (stranded (revision + 1)), trace'⟩ := by
  have hrevision : (stranded revision).revision ≠ maxUint64 := Nat.ne_of_lt hlimit
  let trace' : List Entry := ⟨.save (stranded (revision + 1)), .ok (),
    some (stranded revision)⟩ :: trace
  have hsave : Runs (surroundings sampleService) (save (stranded (revision + 1)))
      ⟨some (stranded revision), trace⟩ (.ok ())
      ⟨some (stranded (revision + 1)), trace'⟩ := by
    refine runs_request.mpr ⟨SaveEnd.done, ?_⟩
    simp only [surroundings, answer, performSave_stranded revision hpositive, trace']
  rw [saveAgain, persist, if_neg hrevision]
  refine ⟨trace', rfl, runs_bind.mpr ⟨(stranded (revision + 1), none), _, ?_,
    runs_pure.mpr ⟨rfl, rfl⟩⟩⟩
  exact runs_bind.mpr ⟨.ok (), _, hsave, runs_pure.mpr ⟨rfl, rfl⟩⟩

/-- A turn with such a receipt probes, saves the same rollout and goes round again. -/
theorem turn_stranded (hpositive : 0 < revision) (hlimit : revision < maxUint64)
    (trace : List Entry) (issued : Bool) :
    ∃ trace', trace'.length = trace.length + 2 ∧
      Runs (surroundings sampleService)
        (turn sampleService (stranded revision) sampleTarget issued)
        ⟨some (stranded revision), trace⟩ (.again (stranded (revision + 1)) issued)
        ⟨some (stranded (revision + 1)), trace'⟩ := by
  obtain ⟨trace', hlength, hsave⟩ := saveAgain_stranded hpositive hlimit
    (⟨.probe (ofText "c") (ofText "2"), some strayReceipt, some (stranded revision)⟩ :: trace) issued
  -- `RecordHealth` refuses the receipt and leaves the rollout as it is.
  exact ⟨trace', hlength, runs_bind.mpr ⟨some strayReceipt, _,
    runs_request.mpr ⟨some strayReceipt, rfl⟩, hsave⟩⟩

/-- The loop probes and saves as long as the revision can grow. -/
theorem turns_stranded (n : Nat) (hpositive : 0 < revision)
    (hlimit : revision + n ≤ maxUint64) (trace : List Entry) (issued : Bool) :
    ∃ w, w.trace.length = trace.length + 2 * n ∧
      Runs (surroundings sampleService)
        (turns sampleService sampleTarget n (stranded revision) issued)
        ⟨some (stranded revision), trace⟩ none w := by
  induction n generalizing revision trace with
  | zero => exact ⟨_, rfl, runs_pure.mpr ⟨rfl, rfl⟩⟩
  | succ n ih =>
    obtain ⟨trace', hlength, hturn⟩ := turn_stranded hpositive (by omega) trace issued
    obtain ⟨w, hw, hrest⟩ := ih (Nat.succ_pos revision) (by omega) trace'
    exact ⟨w, by omega, runs_bind.mpr ⟨_, _, hturn, hrest⟩⟩

/-- A probe that answers without error, but always with the receipt of another node. If the node is
rolled back, `Advance` returns `ErrRollbackFailed` while the file says that the rollout is running. If
it is installed, `Advance` probes and saves without end, up to the largest revision. -/
theorem astray_receipts :
    (∃ w state f, Runs (surroundings sampleService) (advance sampleService 1 (ofText "f"))
      { file := some (strandedState .awaitingRollbackHealth 1) }
      (some ⟨some state, some (err .rollbackFailed)⟩) w ∧
      w.file = some f ∧ f.rollout.rolloutState = .running) ∧
    ∀ n < maxUint64, ∃ w, w.trace.length = 2 * n + 1 ∧
      Runs (surroundings sampleService) (advance sampleService n (ofText "f"))
        { file := some (strandedState .awaitingHealth 1) } none w := by
  constructor
  · have hrun := runs_play (surroundings sampleService) strayRule
      (advance sampleService 1 (ofText "f"))
      { file := some (strandedState .awaitingRollbackHealth 1) }
    exact ⟨_, _, _, hrun, rfl, rfl⟩
  intro n hn
  obtain ⟨w, hlength, hturns⟩ := turns_stranded n Nat.one_pos (by omega)
    [⟨.load (ofText "f"), .ok (some (stranded 1)), some (stranded 1)⟩] false
  have hload : Runs (surroundings sampleService) (loadVerified sampleService (ofText "f"))
      { file := some (stranded 1) } (.ok (stranded 1)) _ :=
    runs_bind.mpr ⟨_, _, runs_request.mpr ⟨(none : Option Fault), rfl⟩, runs_pure.mpr ⟨rfl, rfl⟩⟩
  refine ⟨w, by rw [hlength, length_singleton, Nat.add_comm], runs_bind.mpr ⟨_, _, hload, ?_⟩⟩
  exact runs_bind.mpr ⟨none, w, hturns, runs_pure.mpr ⟨rfl, rfl⟩⟩

end Bria.UpdateFlow
