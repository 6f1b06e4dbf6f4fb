import Bria.InteractionFlow.Flow
import Bria.InteractionStore.Steps

/-!
# Deliveries and replies happen once

The message of an operation is delivered by the call that swapped the operation into
`PhaseSendUnknown`, and its response is returned by the call that swapped it into
`PhaseProviderResponseUnknown`. Both swaps can be made once only, in memory and in the file, and so the
discipline of the process is the same for both: the swap earns a delivery or a reply, and whoever
delivers or replies pays with what it has itself earned (`discipline`). Each method is sound under it
whatever the calls beside it do (`delivered_and_answered_once`).

A confirmation takes the operation out of the store, after which the same interaction is a new
operation. The runs here have none.
-/

namespace Bria.InteractionFlow

open Go RuntimeProtocol InteractionStore Program Discipline

/-! ## The discipline -/

/-- The operation has been fenced before its delivery, and is not confirmed. -/
def Passed (operation : Operation) : Prop :=
  operation.phase ≠ .prepared ∧ operation.phase ≠ .providerResponseConfirmed

/-- The response has been handed over. -/
def Handed (operation : Operation) : Prop := operation.phase = .providerResponseUnknown

/-- This response has been handed over, and it is valid for the request. -/
def Settled (response : InteractionResponse) (operation : Operation) : Prop :=
  operation.phase = .providerResponseUnknown ∧ operation.response = some response ∧
    validResponse {} operation.request response

variable {next current updated : Operation} {w w' : World} {delivery : Delivery} {α : Type}
  {flow : Flow} {call : Call}

/-- Nothing but the confirmation follows the handover. -/
theorem not_transition_of_handed (h : Handed current)
    (htransition : validTransition current.phase next.phase) :
    next.phase = .providerResponseConfirmed := by
  rw [Handed] at h
  simpa only [h, validTransition, decide_eq_true_eq] using htransition

/-- The fence stays. -/
theorem passed_closed : Closed Passed where
  swapped := by
    intro current next _ htransition hnext
    refine ⟨?_, hnext⟩
    change next.phase ≠ .prepared
    intro hprepared
    rw [hprepared] at htransition
    cases hphase : current.phase <;> simp [hphase, validTransition] at htransition
  json h := h
  unconfirmed h := h.2

/-- The handover stays. -/
theorem handed_closed : Closed Handed where
  swapped h htransition hnext := absurd (not_transition_of_handed h htransition) hnext
  json h := h
  unconfirmed h := by
    rw [h]
    exact nofun

/-- The response stays, and stays valid. -/
theorem settled_closed (response : InteractionResponse) : Closed (Settled response) where
  swapped h htransition hnext := absurd (not_transition_of_handed h.1 htransition) hnext
  json := by
    rintro operation ⟨hphase, hresponse, hvalid⟩
    refine ⟨hphase, ?_, (like_json operation.request).response hvalid⟩
    change operation.response.map responseJSON = some response
    rw [hresponse, map_some, responseJSON_of_valid hvalid]
  unconfirmed h := by
    rw [h.1]
    exact nofun

/-- What is done once. -/
inductive Kind where
  | delivery
  | reply
  deriving DecidableEq

/-- The phase that permits it. -/
def Kind.phase : Kind → Phase
  | .delivery => .sendUnknown
  | .reply => .providerResponseUnknown

/-- It has been permitted. -/
def Kind.Permitted : Kind → Operation → Prop
  | .delivery => Passed
  | .reply => Handed

/-- The permission stays. -/
theorem Kind.permitted_closed (kind : Kind) : Closed kind.Permitted := by
  cases kind with
  | delivery => exact passed_closed
  | reply => exact handed_closed

variable {kind : Kind} {id id' : GoString}

/-- The swap of this operation into the phase that permits it earns the permission. -/
def earns (kind : Kind) (id : GoString) : (r : Request) → Answer r → Bool
  | .compareAndSwap _ id' _ next, (a : Except Err (Option Operation)) =>
    match a with
    | .ok (some _) => id' = id && next.phase = kind.phase
    | _ => false
  | _, _ => false

/-- A delivery of this operation costs the permission. -/
def costs (kind : Kind) (id : GoString) : Request → Nat
  | .deliver delivery => if kind = .delivery ∧ delivery.operationID = id then 1 else 0
  | _ => 0

/-- The requests of calls that do not confirm. -/
def Request.Unconfirming : Request → Prop
  | .compareAndSwap _ _ _ next => next.phase ≠ .providerResponseConfirmed
  | .deleteConfirmed _ _ => False
  | _ => True

theorem perform_later (r : Request) (w : World) (c : Choice r) (hr : r.Unconfirming)
    (hkeyed : Keyed w.store.memory) :
    Keyed (perform r w c).2.store.memory ∧ Later w.store (perform r w c).2.store := by
  cases r with
  | create operation =>
    obtain ⟨done, write⟩ := c
    simp only [perform]
    split
    · exact ⟨hkeyed, .refl _⟩
    · exact ⟨hkeyed.create, later_create⟩
  | compareAndSwap cancellable id revision next =>
    obtain ⟨done, write⟩ := c
    simp only [perform]
    split
    · exact ⟨hkeyed, .refl _⟩
    · exact ⟨hkeyed.compareAndSwap, later_compareAndSwap hr⟩
  | deleteConfirmed id revision => exact hr.elim
  | _ => exact ⟨hkeyed, .refl _⟩

/-- A swap that was made: both copies have the operation now. -/
structure Made (w : World) (id : GoString) (next updated : Operation) : Prop where
  current : ∃ current, updated = swapped current next ∧ validTransition current.phase next.phase
  valid : validOperation updated
  memory : w.store.memory.lookup id = some updated
  file : w.store.file.lookup id = some updated

variable {cancellable : Bool} {revision : Nat}

/-- A swap gives an operation with the id of the one that was swapped in. -/
theorem Made.id_eq (h : Made w id' next updated) : updated.id = next.id := by
  obtain ⟨⟨current, rfl, -⟩, -⟩ := h
  rfl

/-- A swap that succeeds was made, of the operation that was in memory. -/
theorem made_of_perform {c : Choice (.compareAndSwap cancellable id revision next)}
    (h : (perform (.compareAndSwap cancellable id revision next) w c).1 = .ok (some updated)) :
    Made (perform (.compareAndSwap cancellable id revision next) w c).2 id next updated ∧
      ∃ current, w.store.memory.lookup id = some current ∧
        validTransition current.phase next.phase := by
  obtain ⟨done, write⟩ := c
  simp only [perform] at h ⊢
  split at h
  · cases h
  rename_i hcancelled
  rw [if_neg hcancelled]
  rcases compareAndSwap_cases write id revision next w.store with
    ⟨-, hnone⟩ | ⟨current, hswap, -, hsave, hok, -⟩
  · exact absurd h (hnone updated)
  obtain ⟨rfl, rfl⟩ := hok updated h
  have hlookup : (w.store.memory.insert id (swapped current next)).lookup id =
      some (swapped current next) := by
    rw [lookup_insert, if_pos rfl]
  refine ⟨⟨⟨current, rfl, hswap.transition⟩, hswap.valid, ?_, ?_⟩, current, hswap.lookup,
    hswap.transition⟩
  all_goals
    rw [hsave]
    exact hlookup

/-- The phase that permits it is not permitted before. -/
theorem not_permitted_of_transition (hphase : next.phase = kind.phase)
    (h : validTransition current.phase next.phase) : ¬kind.Permitted current := by
  rw [hphase] at h
  cases kind with
  | delivery =>
    rintro ⟨hprepared, -⟩
    cases hcurrent : current.phase <;> simp [hcurrent, Kind.phase, validTransition] at h hprepared
  | reply =>
    intro hhanded
    rw [show current.phase = _ from hhanded] at h
    simp [Kind.phase, validTransition] at h

variable {operation : Operation}

/-- The phase that permits it. -/
theorem permitted_of_phase (h : operation.phase = kind.phase) : kind.Permitted operation := by
  cases kind with
  | delivery => refine ⟨?_, ?_⟩ <;> rw [h] <;> exact nofun
  | reply => exact h

/-- A swap that earns the permission was made. -/
theorem swap_of_earns {a : Except Err (Option Operation)}
    (h : earns kind id (.compareAndSwap cancellable id' revision next) a) :
    ∃ updated, a = .ok (some updated) ∧ id' = id ∧ next.phase = kind.phase := by
  rcases a with e | _ | updated
  · cases h
  · cases h
  simp only [earns, and_eq_true, decide_eq_true_eq] at h
  exact ⟨updated, rfl, h.1, h.2⟩

/-- The discipline of the calls, for one operation. -/
def discipline (kind : Kind) (id : GoString) : Discipline surroundings where
  inv w := Keyed w.store.memory
  rely w w' := Later w.store w'.store
  asks := Request.Unconfirming
  earns := earns kind id
  costs := costs kind id
  done w := Kept kind.Permitted id w.store
  refl w := .refl w.store
  trans := .trans
  keeps r w c := perform_later r w c
  stays h := h.kept _ _ kind.permitted_closed
  once := by
    intro r w c _ _ hearns
    cases r with
    | compareAndSwap cancellable id' revision next =>
      obtain ⟨updated, hupdated, rfl, hphase⟩ := swap_of_earns hearns
      obtain ⟨hmade, current, hcurrent, htransition⟩ := made_of_perform hupdated
      have hpermitted : kind.Permitted updated := by
        obtain ⟨⟨current, rfl, -⟩, -⟩ := hmade
        exact permitted_of_phase hphase
      refine ⟨fun hkept => ?_, ⟨updated, hmade.memory, hpermitted⟩, updated, hmade.file, hpermitted⟩
      obtain ⟨⟨operation, hoperation, hp⟩, -⟩ := hkept
      obtain rfl := mem_unique hcurrent hoperation
      exact not_permitted_of_transition hphase htransition hp
    | _ => cases hearns

/-! ## Rules for the requests -/

/-- What a swap into a phase earns. -/
def gain (kind : Kind) (id id' : GoString) (next : Operation) : Nat :=
  if id' = id ∧ next.phase = kind.phase then 1 else 0

variable {β : Type} {R : β → Nat → World → Prop} {n : Nat} {w : World}
  {f : Except Err (Option Operation) → Work β}

/-- The requests that leave the store alone and cost nothing. -/
def Request.Quiet : Request → Prop
  | .create _ | .compareAndSwap _ _ _ _ | .deleteConfirmed _ _ | .deliver _ => False
  | _ => True

/-- A request that leaves the store alone, and the rest of the program. -/
theorem quiet_sound {r : Request} {f : Answer r → Work β}
    (hf : ∀ w' a, Later w.store w'.store → Keyed w'.store.memory →
      (discipline kind id).Sound R (f a) n w') (q : r.Quiet) :
    (discipline kind id).Sound R (Program.request r >>= f) n w := by
  cases r with
  | create _ | compareAndSwap _ _ _ _ | deleteConfirmed _ _ | deliver _ => exact q.elim
  | _ => exact ⟨trivial, Nat.zero_le n, fun w' hlater hkeyed c => hf _ _ hlater hkeyed⟩

theorem load_sound
    (hf : ∀ w' a, Later w.store w'.store → Keyed w'.store.memory →
      (∀ x, a = .ok x → saneText id' 256 ∧ x = (w'.store.memory.lookup id').map cloneOperation) →
      (discipline kind id).Sound R (f a) n w') :
    (discipline kind id).Sound R (load cancellable id' >>= f) n w := by
  refine ⟨trivial, Nat.zero_le n, fun w' hlater hkeyed c => hf _ _ hlater hkeyed fun x hx => ?_⟩
  change (if cancellable && c then .error (err .canceled)
    else InteractionStore.load id' w'.store) = .ok x at hx
  split at hx
  · cases hx
  obtain ⟨hsane, hx⟩ := check_eq_ok.mp hx
  exact ⟨by simpa using refuse_eq_ok.mp hsane, (ok.inj hx).symm⟩

theorem deliver_sound {f : Option DeliveryReceipt → Work β}
    (hcosts : costs kind id (.deliver delivery) ≤ n)
    (hf : ∀ w' a, Later w.store w'.store → Keyed w'.store.memory →
      (discipline kind id).Sound R (f a) (n - costs kind id (.deliver delivery)) w') :
    (discipline kind id).Sound R (deliver delivery >>= f) n w :=
  ⟨trivial, hcosts, fun _ hlater hkeyed c => hf _ c hlater hkeyed⟩

theorem swap_sound (hnext : next.phase ≠ .providerResponseConfirmed)
    (herror : ∀ e w', (discipline kind id).Sound R (f (.error e)) n w')
    (hnone : ∀ w', (discipline kind id).Sound R (f (.ok none)) n w')
    (hmade : ∀ w' updated, Later w.store w'.store → Keyed w'.store.memory →
      Made w' id' next updated →
      (discipline kind id).Sound R (f (.ok (some updated))) (n + gain kind id id' next) w') :
    (discipline kind id).Sound R (compareAndSwap cancellable id' revision next >>= f) n w := by
  refine .request hnext (Nat.zero_le n) fun w' c hlater hkeyed hkeyed' => ?_
  have hlater' : Later w.store
      (perform (.compareAndSwap cancellable id' revision next) w' c).2.store :=
    hlater.trans (perform_later (.compareAndSwap cancellable id' revision next) w' c hnext hkeyed).2
  change (discipline kind id).Sound R
    (f (perform (.compareAndSwap cancellable id' revision next) w' c).1)
    (n + (discipline kind id).income (.compareAndSwap cancellable id' revision next)
      (perform (.compareAndSwap cancellable id' revision next) w' c).1) _
  rcases hanswer : (perform (.compareAndSwap cancellable id' revision next) w' c).1 with
    e | _ | updated
  · exact herror e _
  · exact hnone _
  have hincome : (discipline kind id).income (.compareAndSwap cancellable id' revision next)
      (.ok (some updated)) = gain kind id id' next := by
    simp only [income, discipline, earns, gain, and_eq_true, decide_eq_true_eq]
  rw [hincome]
  exact hmade _ updated hlater' hkeyed' (made_of_perform hanswer).1

theorem create_sound {f : Except Err Operation → Work β}
    (hf : ∀ w' a, Later w.store w'.store → Keyed w'.store.memory →
      (∀ made, a = .ok made → made.id = operation.id) →
      (∀ e, a = .error e → e.is .operationExists → (w'.store.memory.lookup operation.id).isSome) →
      (discipline kind id).Sound R (f a) n w') :
    (discipline kind id).Sound R (create operation >>= f) n w := by
  refine .request trivial (Nat.zero_le n) fun w' c hlater hkeyed hkeyed' => ?_
  have hlater' := (perform_later (.create operation) w' c trivial hkeyed).2
  refine hf _ _ (hlater.trans hlater') hkeyed' (fun made hmade => ?_) fun e he hexists => ?_
  · obtain ⟨done, write⟩ := c
    simp only [surroundings, perform] at hmade
    split at hmade
    · cases hmade
    rcases create_cases write operation w'.store with ⟨-, hnot⟩ | ⟨-, -, -, hok⟩
    · exact absurd hmade (hnot made)
    obtain ⟨-, rfl⟩ := hok made hmade
    rfl
  refine hlater'.present _ ?_
  obtain ⟨done, write⟩ := c
  simp only [surroundings, perform] at he
  split at he
  · obtain rfl := error.inj he
    cases hexists
  · exact exists_of_create he hexists

/-! ## Replies -/

/-- What a reply for an operation costs. -/
def owed (kind : Kind) (id id' : GoString) : Nat := if kind = .reply ∧ id' = id then 1 else 0

/-- A response that is returned from the operation has been paid for, and both copies of the store
have it. -/
def ReplyEnds (kind : Kind) (id id' : GoString) (r : Option (Except Err Reply)) (n : Nat) (w : World) :
    Prop :=
  ∀ response, r = some (.ok (.stored response)) →
    owed kind id id' ≤ n ∧ Kept (Settled response) id' w.store

variable {r : Option (Except Err Reply)}

section

variable (flow : Flow) (input : TextInput) (fuel : Nat) (envelope : InteractionEnvelope)

/-- A program that pays for the response that it returns. -/
abbrev Pays (kind : Kind) (id id' : GoString) (p : Work (Option (Except Err Reply))) (n : Nat)
    (w : World) : Prop :=
  (discipline kind id).Sound (ReplyEnds kind id id') p n w

theorem none_sound (h : ∀ response, r ≠ some (.ok (.stored response))) :
    Pays kind id id' (pure r) n w :=
  fun _ _ _ response hr => absurd hr (h response)

theorem fail_sound {e : Err} : (discipline kind id).Sound (fun r => ReplyEnds kind id id' (some r))
    (pure (.error e)) n w :=
  fun _ _ _ response h => by cases h

/-- An operation whose response is handed over. -/
theorem settled_of_valid {response : InteractionResponse}
    (hvalid : validOperation operation) (hphase : operation.phase = .providerResponseUnknown)
    (hresponse : operation.response = some response) : Settled response operation := by
  refine ⟨hphase, hresponse, ?_⟩
  simp only [validOperation, validPhase, hphase, hresponse, and_eq_true, all_some] at hvalid
  exact hvalid.2.1.2

/-- `handoffResponse` pays for the response that it returns. -/
theorem handoffResponse_sound (cancellable : Bool) (operation : Operation) :
    (discipline kind id).Sound (fun r => ReplyEnds kind id operation.id (some r))
      (handoffResponse cancellable operation) n w := by
  unfold handoffResponse
  split
  · exact fail_sound
  refine quiet_sound (q := trivial) fun w1 time _ _ => ?_
  refine swap_sound (by exact nofun) (fun _ _ => fail_sound) (fun _ => fail_sound)
    fun w2 updated _ _ hmade => ?_
  have hphase : updated.phase = .providerResponseUnknown := by
    obtain ⟨⟨current, rfl, -⟩, -⟩ := hmade
    rfl
  dsimp only
  split
  · rename_i response hresponse
    intro w3 hlater _ response' hr
    obtain rfl : response = response' := by
      injection hr with hr
      injection hr with hr
      injection hr
    have hsettled := settled_of_valid hmade.valid hphase hresponse
    refine ⟨?_, hlater.kept _ _ (settled_closed response)
      ⟨⟨updated, hmade.memory, hsettled⟩, updated, hmade.file, hsettled⟩⟩
    unfold owed gain
    split
    · rename_i hreply
      rw [if_pos ⟨hreply.2, by rw [hreply.1]; rfl⟩]
      omega
    · exact Nat.zero_le _
  · exact fail_sound

/-- What is ensured of a reply stays so. -/
theorem ReplyEnds.later (h : ReplyEnds kind id id' r n w) (hlater : Later w.store w'.store) :
    ReplyEnds kind id id' r n w' := by
  intro response hr
  obtain ⟨hpaid, hkept⟩ := h response hr
  exact ⟨hpaid, hlater.kept _ _ (settled_closed response) hkept⟩

/-- The same, where its result is returned. -/
theorem handoff_sound (cancellable : Bool) (hid : operation.id = id')
    (hkeyed : Keyed w.store.memory) :
    Pays kind id id' (do return some (← handoffResponse cancellable operation)) n w := by
  subst hid
  refine .bind hkeyed (handoffResponse_sound cancellable operation) fun r n w' _ hends => ?_
  exact fun w'' hlater _ => hends.later hlater

theorem id_of_load (hkeyed : Keyed w.store.memory)
    (h : some operation = (w.store.memory.lookup id').map cloneOperation) : operation.id = id' := by
  obtain ⟨current, hcurrent, rfl⟩ := map_eq_some_iff.mp h.symm
  exact (hkeyed id' current hcurrent).1

/-- `cancelWaiting` pays for the response that it returns. -/
theorem cancelWaiting_sound (id' resolution : GoString) (fuel : Nat) :
    Pays kind id id' (cancelWaiting id' resolution fuel) n w := by
  induction fuel generalizing n w with
  | zero => exact none_sound (by simp)
  | succ fuel ih =>
    refine load_sound fun w1 a _ hkeyed hload => ?_
    rcases a with e | _ | operation
    · exact none_sound (by simp)
    · exact none_sound (by simp)
    have hid := id_of_load hkeyed (hload _ rfl).2
    dsimp only
    split
    · exact handoff_sound false hid hkeyed
    split
    · exact none_sound (by simp)
    split
    · exact none_sound (by simp)
    refine quiet_sound (q := trivial) fun w2 time _ _ => ?_
    refine swap_sound (by exact nofun) (fun _ _ => none_sound (by simp)) (fun _ => ih)
      fun w3 updated _ hkeyed hmade => ?_
    exact handoff_sound false (hmade.id_eq.trans hid) hkeyed

/-- `awaitResponse` pays for the response that it returns. -/
theorem awaitResponse_sound (id' : GoString) : Pays kind id id' (awaitResponse fuel id') n w := by
  induction fuel generalizing n w with
  | zero => exact none_sound (by simp)
  | succ fuel ih =>
    have hgoOn : ∀ n w, Pays kind id id' (goOn id' fuel (awaitResponse fuel id')) n w := by
      intro n w
      refine quiet_sound (q := trivial) fun w' wake _ _ => ?_
      cases wake with
      | woken => exact ih
      | cancelled | timeout => exact cancelWaiting_sound id' _ fuel
    refine load_sound fun w1 a _ hkeyed hload => ?_
    rcases a with e | _ | operation
    · exact none_sound (by simp)
    · exact none_sound (by simp)
    have hid := id_of_load hkeyed (hload _ rfl).2
    dsimp only
    cases hphase : operation.phase with
    | responseReady => exact handoff_sound false hid hkeyed
    | waiting | waitingText => exact hid ▸ hgoOn n w1
    | providerResponseUnknown =>
      refine quiet_sound (q := trivial) fun w2 taken _ _ => ?_
      cases taken <;> exact none_sound (by simp)
    | secretDeletionUnknown =>
      refine quiet_sound (q := trivial) fun w2 inFlight _ _ => ?_
      split
      · exact hid ▸ hgoOn n w2
      · exact none_sound (by simp)
    | _ => exact none_sound (by simp)

/-- Nothing is awaited without an id. -/
theorem awaitResponse_nil_sound : Pays kind id id' (awaitResponse fuel []) n w := by
  cases fuel with
  | zero => exact none_sound (by simp)
  | succ fuel =>
    refine load_sound fun w1 a _ _ hload => ?_
    cases a with
    | error e => exact none_sound (by simp)
    | ok x => exact absurd (hload x rfl).1 (by decide)

/-- `autoApprove` returns the operation. -/
theorem autoApprove_sound (operation : Operation) :
    (discipline kind id).Sound (fun r _ _ => ∀ updated, r = .ok updated → updated.id = operation.id)
      (autoApprove operation) n w := by
  unfold autoApprove
  split
  · exact fun _ _ _ updated h => by cases h
  refine quiet_sound (q := trivial) fun w1 time _ _ => ?_
  refine swap_sound (by exact nofun) (fun _ _ _ _ _ updated h => by cases h)
    (fun _ _ _ _ updated h => by cases h) fun w2 updated _ _ hmade w3 _ _ updated' h => ?_
  obtain rfl := ok.inj h
  exact hmade.id_eq

/-- The swap into `PhaseSendUnknown` earns what a delivery costs. -/
theorem costs_le_gain (h : next.phase = .sendUnknown) :
    costs kind id (.deliver delivery) ≤ gain kind id delivery.operationID next := by
  simp only [costs, gain]
  by_cases hdelivery : kind = .delivery ∧ delivery.operationID = id
  · rw [if_pos hdelivery, if_pos ⟨hdelivery.2, by rw [h, hdelivery.1]; rfl⟩]
  rw [if_neg hdelivery]
  exact Nat.zero_le _

/-- `deliverInitial` delivers only after its own swap, and returns the operation. -/
theorem deliverInitial_sound (operation : Operation) :
    (discipline kind id).Sound
      (fun r _ _ => ∀ updated, r = .ok (some updated) → updated.id = operation.id)
      (deliverInitial operation) n w := by
  refine quiet_sound (q := trivial) fun w1 time _ _ => ?_
  refine swap_sound (by exact nofun) (fun _ _ _ _ _ updated h => by cases h)
    (fun w2 => ?_) fun w2 fence _ _ hmade => ?_
  · refine load_sound (f := pure) fun w3 a _ hkeyed hload w4 _ _ updated h => ?_
    exact id_of_load hkeyed (hload _ h).2
  have hfence := hmade.id_eq
  -- The swap has just earned what the delivery costs.
  have hpaid : costs kind id (.deliver (deliveryOf operation)) ≤
      gain kind id operation.id (fenced operation time) := costs_le_gain rfl
  refine deliver_sound (Nat.le_trans hpaid (Nat.le_add_left _ n)) fun w3 receipt _ _ => ?_
  split
  · exact fun _ _ _ updated h => by cases h
  refine quiet_sound (q := trivial) fun w4 time _ _ => ?_
  refine swap_sound (by exact nofun) (fun _ _ _ _ _ updated h => by cases h)
    (fun _ _ _ _ updated h => by cases h) fun w5 updated _ _ hmade w6 _ _ updated' h => ?_
  obtain rfl := some.inj (ok.inj h)
  exact hmade.id_eq.trans hfence

/-- `ResolveInteraction` pays for its response once the operation is found. -/
theorem resolveOperation_sound (hid : operation.id = id') (hkeyed : Keyed w.store.memory) :
    Pays kind id id' (resolveOperation fuel envelope operation) n w := by
  subst hid
  unfold resolveOperation
  split
  · exact none_sound (by simp)
  split
  · split
    · refine .bind hkeyed (autoApprove_sound operation) fun r n w' _ hr => ?_
      cases r with
      | error e => exact none_sound (by simp)
      | ok updated => exact hr updated rfl ▸ awaitResponse_sound fuel updated.id
    refine .bind hkeyed (deliverInitial_sound operation) fun r n w' _ hr => ?_
    rcases r with e | _ | updated
    · exact none_sound (by simp)
    · exact awaitResponse_nil_sound fuel
    · exact hr updated rfl ▸ awaitResponse_sound fuel updated.id
  · exact awaitResponse_sound fuel operation.id

/-- `ResolveInteraction` pays for the response that it returns. -/
theorem resolveInteraction_sound :
    (discipline kind id).Sound (ReplyEnds kind id (operationID flow envelope))
      (resolveInteraction flow fuel envelope) n w := by
  unfold resolveInteraction
  split
  · exact none_sound (by simp)
  refine load_sound fun w1 a _ hkeyed hload => ?_
  rcases a with e | _ | operation
  · exact none_sound (by simp)
  · refine quiet_sound (q := trivial) fun w2 time _ _ => ?_
    refine create_sound fun w3 a _ hkeyed3 hmade hexists => ?_
    cases a with
    | ok operation => exact resolveOperation_sound fuel envelope (hmade operation rfl) hkeyed3
    | error e =>
      dsimp only
      split
      · exact none_sound (by simp)
      rename_i hexist
      have hpresent := hexists e rfl (by simpa using hexist)
      refine load_sound fun w4 a hlater hkeyed4 hload => ?_
      rcases a with e | _ | operation
      · exact none_sound (by simp)
      · -- The operation was there, and nothing removes it.
        have hstill := hlater.present _ hpresent
        have hnone := (hload none rfl).2
        obtain ⟨current, hcurrent⟩ := Option.isSome_iff_exists.mp hstill
        rw [show (prepared flow envelope time).id = operationID flow envelope from rfl] at hcurrent
        rw [hcurrent] at hnone
        cases hnone
      · exact resolveOperation_sound fuel envelope (id_of_load hkeyed4 (hload _ rfl).2) hkeyed4
  · exact resolveOperation_sound fuel envelope (id_of_load hkeyed (hload _ rfl).2) hkeyed

/-- `ResumeOperation` pays for the response that it returns. -/
theorem resumeOperation_sound (id' : GoString) :
    (discipline kind id).Sound (fun r => ReplyEnds kind id id' (some r)) (resumeOperation id') n w := by
  refine load_sound fun w1 a _ hkeyed hload => ?_
  rcases a with e | _ | operation
  · exact fail_sound
  · exact fail_sound
  have hid := id_of_load hkeyed (hload _ rfl).2
  dsimp only
  split
  · exact hid ▸ handoffResponse_sound true operation
  · exact fail_sound
  · exact fail_sound
  · exact fail_sound

/-! ## Other calls -/

/-- A program that returns no response. -/
abbrev Works {α : Type} (kind : Kind) (id : GoString) (p : Work α) (n : Nat) (w : World) : Prop :=
  (discipline kind id).Sound (fun _ _ _ => True) p n w

theorem works_pure (a : α) : Works kind id (pure a : Work α) n w := fun _ _ _ => trivial

theorem works_swap {f : Except Err (Option Operation) → Work α}
    (hnext : next.phase ≠ .providerResponseConfirmed) (hf : ∀ a n w', Works kind id (f a) n w') :
    Works kind id (compareAndSwap cancellable id' revision next >>= f) n w :=
  swap_sound hnext (fun _ w' => hf _ n w') (fun w' => hf _ n w') fun w' _ _ _ _ => hf _ _ w'

/-- A request that leaves the store alone in such a program. -/
theorem works_quiet {r : Request} {f : Answer r → Work α}
    (hf : ∀ a w', Keyed w'.store.memory → Works kind id (f a) n w') (q : r.Quiet) :
    Works kind id (Program.request r >>= f) n w :=
  quiet_sound (fun w' a _ hkeyed => hf a w' hkeyed) q

/-- A callback leaves the phase as it is, or is an answer or the choice to write one. -/
def Answers (operation next : Operation) : Prop :=
  next.phase = operation.phase ∨ next.phase = .responseReady ∨ next.phase = .waitingText

theorem applyCallback_phase {plan : CallbackPlan} {interaction : CallbackInteraction}
    (h : applyCallback operation plan interaction = .ok next) : Answers operation next := by
  have hchoose : ∀ choice, choose operation choice = .ok next → Answers operation next := by
    intro choice h
    unfold choose at h
    split at h
    · cases h
    split at h
    · cases h
    split at h
    · replace h := of_check h
      obtain rfl := ok.inj h
      exact .inr (.inl rfl)
    obtain rfl := ok.inj h
    exact .inl rfl
  have hmove : ∀ back, moveSelection operation back = .ok next → Answers operation next := by
    intro back h
    unfold moveSelection at h
    split at h
    · cases h
    replace h := of_check h
    obtain rfl := ok.inj h
    exact .inl rfl
  have hdecide : ∀ decline, decideApproval operation decline = .ok next → Answers operation next := by
    intro decline h
    replace h := of_check h
    obtain rfl := ok.inj h
    exact .inr (.inl rfl)
  unfold applyCallback at h
  split at h
  · exact hmove _ (check_eq_ok.mp h).2
  · exact hmove _ (check_eq_ok.mp h).2
  · exact hchoose _ (check_eq_ok.mp h).2
  · exact hchoose _ (check_eq_ok.mp h).2
  · have h := (check_eq_ok.mp h).2
    unfold chooseOther at h
    split at h
    · cases h
    replace h := of_check h
    obtain rfl := ok.inj h
    exact .inr (.inr rfl)
  · exact hdecide _ (check_eq_ok.mp h).2
  · exact hdecide _ (check_eq_ok.mp h).2
  · replace h := of_check h
    obtain rfl := ok.inj h
    exact .inr (.inl rfl)
  · cases h

/-- `HandleCallback` costs nothing. -/
theorem handleCallback_works (plan : CallbackPlan) :
    Works kind id (handleCallback fuel plan) n w := by
  unfold handleCallback
  split
  · exact works_pure _
  rename_i interaction _
  split
  · exact works_pure _
  induction fuel generalizing n w with
  | zero => exact works_pure _
  | succ fuel ih =>
    refine load_sound fun w1 a _ hkeyed hload => ?_
    rcases a with e | _ | operation
    · exact works_pure _
    · exact works_pure _
    dsimp only
    split
    · exact works_pure _
    split
    · exact works_pure _
    split
    · exact works_pure _
    rename_i hawaits
    split
    · exact works_pure _
    rename_i next hnext
    refine works_quiet (q := trivial) fun time w2 _ => ?_
    refine works_swap ?_ fun a n w3 => ?_
    · change next.phase ≠ .providerResponseConfirmed
      have hphase : operation.phase ≠ .providerResponseConfirmed := by
        intro hconfirmed
        simp [awaitsCallback, hconfirmed] at hawaits
      rcases applyCallback_phase hnext with h | h | h
      · rwa [h]
      · rw [h]
        exact nofun
      rw [h]
      exact nofun
    · rcases a with e | _ | updated
      · exact works_pure _
      · exact ih
      · exact works_pure _

theorem finishSecretResponse_works (operation : Operation) (answer : GoString) :
    Works kind id (finishSecretResponse operation answer) n w := by
  unfold finishSecretResponse
  split
  · exact works_pure _
  dsimp only
  split
  · exact works_pure _
  refine works_quiet (q := trivial) fun _ w1 _ => ?_
  refine works_quiet (q := trivial) fun time w2 _ => ?_
  refine works_swap (by exact nofun) fun a n w3 => ?_
  rcases a with e | _ | updated
  · exact works_quiet (q := trivial) fun _ _ _ =>
      works_quiet (q := trivial) fun _ _ _ => works_pure _
  · exact works_quiet (q := trivial) fun _ _ _ =>
      works_quiet (q := trivial) fun _ _ _ => works_pure _
  · exact works_quiet (q := trivial) fun _ _ _ => works_pure _

theorem consumeBoundSourceMessage_works :
    Works kind id (consumeBoundSourceMessage flow input) n w := by
  have hfinish : ∀ source result n w, Works kind id (finishBoundSource input source result) n w := by
    intro source result n w
    refine load_sound fun w1 a _ hkeyed _ => ?_
    rcases a with e | _ | operation
    · exact works_pure _
    · exact works_pure _
    dsimp only
    split
    · exact works_pure _
    exact .bind hkeyed (finishSecretResponse_works operation input.text)
      fun _ _ _ _ _ => works_pure _
  unfold consumeBoundSourceMessage
  split
  · exact works_pure _
  refine works_quiet (q := trivial) fun a w1 _ => ?_
  rcases a with e | _ | source
  · exact works_pure _
  · exact works_pure _
  dsimp only
  split
  · exact hfinish _ _ _ _
  split
  · exact works_pure _
  refine works_quiet (q := trivial) fun deleted w2 _ => ?_
  split
  · exact works_pure _
  refine works_quiet (q := trivial) fun time w3 _ => ?_
  refine works_quiet (q := trivial) fun a w4 _ => ?_
  rcases a with e | confirmed
  · exact works_pure _
  dsimp only
  split
  · exact works_pure _
  · exact hfinish _ _ _ _

/-- A secret answer costs nothing. -/
theorem resolveSecret_works (operation : Operation) (result : TextResult) :
    Works kind id (resolveSecret flow input operation result) n w := by
  have hstop : ∀ (out : TextOutcome) n w, Works kind id
      (setSecretInFlight operation.id false >>= fun _ => pure out) n w := fun out n w =>
    works_quiet (q := trivial) fun _ _ _ => works_pure out
  unfold resolveSecret
  split
  · exact works_pure _
  refine works_quiet (q := trivial) fun _ w1 _ => ?_
  refine works_quiet (q := trivial) fun time w2 _ => ?_
  refine works_swap (by exact nofun) fun a n w3 => ?_
  rcases a with e | _ | fence
  · exact hstop _ _ _
  · exact hstop _ _ _
  refine works_quiet (q := trivial) fun created w4 _ => ?_
  refine works_quiet (q := trivial) fun updated w5 _ => ?_
  refine works_quiet (q := trivial) fun a w6 _ => ?_
  rcases a with e | source
  · exact hstop _ _ _
  refine works_quiet (q := trivial) fun deleted w7 _ => ?_
  split
  · exact works_pure _
  refine works_quiet (q := trivial) fun time w8 _ => ?_
  refine works_quiet (q := trivial) fun a w9 hkeyed => ?_
  rcases a with e | _ | confirmed
  · exact hstop _ _ _
  · exact hstop _ _ _
  refine .bind hkeyed (finishSecretResponse_works fence input.text) fun e _ _ _ _ => ?_
  cases e <;> exact works_pure _

theorem resolvePendingText_works : Works kind id (resolvePendingText flow input) n w := by
  unfold resolvePendingText
  split
  · exact works_pure _
  refine works_quiet (q := trivial) fun a w1 _ => ?_
  rcases a with e | _ | operation
  · exact works_pure _
  · exact works_pure _
  dsimp only
  split
  · exact works_pure _
  rename_i question _
  split
  · exact works_pure _
  split
  · unfold resolveRedelivered
    split
    · exact works_pure _
    refine works_quiet (q := trivial) fun a w2 _ => ?_
    rcases a with e | _ | source
    · exact works_pure _
    · refine works_quiet (q := trivial) fun a w3 _ => ?_
      cases a with
      | error e => exact works_pure _
      | ok source => exact consumeBoundSourceMessage_works flow input
    · exact consumeBoundSourceMessage_works flow input
  · unfold resolveText
    split
    · exact works_pure _
    dsimp only
    split
    · exact works_pure _
    split
    · exact resolveSecret_works flow input operation _
    refine works_quiet (q := trivial) fun time w2 _ => ?_
    refine works_swap (by exact nofun) fun a n w3 => ?_
    rcases a with e | _ | updated <;> exact works_pure _

/-! ## Runs -/

/-- The operation of which a call returns the response. -/
def Call.operationID (flow : Flow) : Call → GoString
  | .resolve _ envelope => InteractionFlow.operationID flow envelope
  | .resume id => id
  | _ => []

/-- A response from the operation is returned to the provider with a nil error. -/
def Outcome.stored : Outcome → Option InteractionResponse
  | .reply (some (.ok (.stored response))) => some response
  | _ => none

/-- What a result costs. -/
def price (kind : Kind) (id : GoString) (call : Call) (outcome : Outcome) : Nat :=
  if outcome.stored.isSome then owed kind id (call.operationID flow) else 0

/-- What holds of the store when a response is returned. -/
def Ensured (call : Call) (outcome : Outcome) (w : World) : Prop :=
  ∀ response, outcome.stored = some response →
    Kept (Settled response) (call.operationID flow) w.store

end

/-- The call does not confirm a response. -/
def Call.Unconfirming : Call → Prop
  | .confirm _ _ => False
  | _ => True

/-- A program that returns no response, as that of a call. -/
theorem ends_of_works {p : Work α} {f : α → Outcome} (hf : ∀ a, (f a).stored = none)
    (hkeyed : Keyed w.store.memory) (h : Works kind id p n w) :
    (discipline kind id).Sound (Ends (price flow kind id) (Ensured flow) call)
      (do return f (← p)) n w := by
  refine .bind hkeyed h fun a n w' _ _ w'' _ _ => ⟨?_, fun response hresponse => ?_⟩
  · rw [price, hf a]
    exact Nat.zero_le n
  rw [hf a] at hresponse
  cases hresponse

theorem ends_of_reply (hid : call.operationID flow = id') (h : ReplyEnds kind id id' r n w) :
    Ends (price flow kind id) (Ensured flow) call (.reply r) n w := by
  subst hid
  rcases r with _ | _ | response | response
  · exact ⟨Nat.zero_le n, fun _ h => by cases h⟩
  · exact ⟨Nat.zero_le n, fun _ h => by cases h⟩
  · obtain ⟨hpaid, hkept⟩ := h response rfl
    exact ⟨hpaid, fun _ h => some.inj h ▸ hkept⟩
  · exact ⟨Nat.zero_le n, fun _ h => by cases h⟩

/-- Every call is sound. -/
theorem work_sound (flow : Flow) (call : Call) (hcall : call.Unconfirming)
    (hkeyed : Keyed w.store.memory) :
    (discipline kind id).Sound (Ends (price flow kind id) (Ensured flow) call)
      (call.work flow) 0 w := by
  cases call with
  | resolve fuel envelope =>
    refine .bind hkeyed (resolveInteraction_sound flow fuel envelope)
      fun r n w' _ hr w'' hlater _ => ?_
    exact ends_of_reply rfl (hr.later hlater)
  | resume id' =>
    refine .bind hkeyed (resumeOperation_sound id') fun r n w' _ hr w'' hlater _ => ?_
    exact ends_of_reply rfl (hr.later hlater)
  | callback fuel plan => exact ends_of_works (fun _ => rfl) hkeyed (handleCallback_works fuel plan)
  | text input => exact ends_of_works (fun _ => rfl) hkeyed (resolvePendingText_works flow input)
  | boundSource input =>
    exact ends_of_works (fun _ => rfl) hkeyed (consumeBoundSourceMessage_works flow input)
  | confirm fuel acceptance => exact hcall.elim

/-- How often an operation is delivered. -/
def deliveries (id : GoString) : List (Event Call Request Answer Outcome) → Nat
  | [] => 0
  | .asked _ (.deliver delivery) _ :: trace =>
    (if delivery.operationID = id then 1 else 0) + deliveries id trace
  | _ :: trace => deliveries id trace

/-- How often a response of an operation that is not secret is returned to the provider with a nil
error. -/
def replies (flow : Flow) (id : GoString) : List (Event Call Request Answer Outcome) → Nat
  | [] => 0
  | .returned call outcome :: trace =>
    (if outcome.stored.isSome ∧ call.operationID flow = id then 1 else 0) + replies flow id trace
  | _ :: trace => replies flow id trace

section

variable (flow : Flow) (id : GoString) (trace : List (Event Call Request Answer Outcome))

theorem deliveries_eq_paid :
    deliveries id trace = (discipline .delivery id).paid (price flow .delivery id) trace := by
  induction trace with
  | nil => rfl
  | cons event trace ih =>
    cases event with
    | asked call r a =>
      cases r with
      | deliver delivery => simp [deliveries, paid, discipline, costs, ih]
      | _ => simp [deliveries, paid, discipline, costs, ih]
    | returned call outcome => simp [deliveries, paid, price, owed, ih]

theorem replies_eq_paid :
    replies flow id trace = (discipline .reply id).paid (price flow .reply id) trace := by
  induction trace with
  | nil => rfl
  | cons event trace ih =>
    cases event with
    | asked call r a => cases r <;> simp [replies, paid, discipline, costs, ih]
    | returned call outcome =>
      cases hstored : outcome.stored <;> simp [replies, paid, price, owed, ih, hstored]

end

theorem restarts_keeps (flow : Flow) (h : Restarts w w') (_ : Keyed w.store.memory) :
    Keyed w'.store.memory ∧
      (Kept kind.Permitted id w.store → Kept kind.Permitted id w'.store) ∧
      ∀ call outcome, Ensured flow call outcome w → Ensured flow call outcome w' := by
  obtain ⟨store, hopens, rfl⟩ := h
  refine ⟨Keyed.opens hopens, fun hkept => .opens kind.permitted_closed hkept.2 hopens, ?_⟩
  intro call outcome hensured response hresponse
  exact .opens (settled_closed response) (hensured response hresponse).2 hopens

/-- The discipline is kept in every run without confirmations. -/
theorem holds_of_run (flow : Flow) (kind : Kind) (id : GoString) {file : Operations}
    {store : FileStore} {process : Process} (hopens : Opens file store)
    (hrun : Relation.ReflTransGen (Step flow Call.Unconfirming) ⟨{ store }, [], []⟩ process) :
    (discipline kind id).Holds (price flow kind id) (Ensured flow) process := by
  refine .run (fun call w hcall hkeyed => work_sound flow call hcall hkeyed) ?_
    (fun w w' h hkeyed => restarts_keeps flow h hkeyed) (.initial (Keyed.opens hopens)) hrun
  intro call outcome w w' hlater _ hensured response hresponse
  exact hlater.kept _ _ (settled_closed response) (hensured response hresponse)

/-- For every interleaving of calls, also with texts that answer questions, and of restarts, and for
every operation: its message is delivered at most once, a response that is not secret is returned with
a nil error at most once, and a response that is so returned is the one in the store, where it is valid
for the request. -/
theorem delivered_and_answered_once {flow : Flow} {file : Operations} {store : FileStore}
    {process : Process} (hopens : Opens file store)
    (hrun : Relation.ReflTransGen (Step flow Call.Unconfirming) ⟨{ store }, [], []⟩ process)
    (id : GoString) :
    deliveries id process.trace ≤ 1 ∧ replies flow id process.trace ≤ 1 ∧
      ∀ call response, .returned call (.reply (some (.ok (.stored response)))) ∈ process.trace →
        call.operationID flow = id →
        ∃ operation, process.state.store.memory.lookup id = some operation ∧
          operation.response = some response ∧
          validResponse {} operation.request response := by
  refine ⟨?_, ?_, fun call response hreturned hid => ?_⟩
  · rw [deliveries_eq_paid flow]
    exact (holds_of_run flow .delivery id hopens hrun).paid_le_one
  · rw [replies_eq_paid]
    exact (holds_of_run flow .reply id hopens hrun).paid_le_one
  have hensured := (holds_of_run flow .reply id hopens hrun).ensured call _ hreturned
  obtain ⟨⟨operation, hlookup, -, hresponse, hvalid⟩, -⟩ := hensured response rfl
  exact ⟨operation, hid ▸ hlookup, hresponse, hvalid⟩

/-- A flow. -/
def sampleFlow : Flow where
  conversationID := 7
  positive := by decide
  ownerActorID := 0
  deletes := false
  sum256 _ := .replicate 32 0

/-- A question with one option. -/
def sampleEnvelope : InteractionEnvelope where
  sessionID := ofText "s"
  messageID := ofText "m"
  request := {
    id := ofText "r"
    kind := .question
    questions := some [{
      id := ofText "q", header := ofText "H", text := ofText "T",
      options := some [{ label := ofText "yes" }] }] }

/-- Everything succeeds, and nobody answers in time. -/
def unanswered : (r : Request) → Choice r
  | .load _ _ => false
  | .pendingText _ => false
  | .create _ => (false, Write.done)
  | .compareAndSwap _ _ _ _ => (false, Write.done)
  | .deleteConfirmed _ _ => (false, Write.done)
  | .loadConsumedSource _ _ _ => (.ok none : Except Err (Option ConsumedSource))
  | .recordConsumedSource _ => (.error (err .canceled) : Except Err ConsumedSource)
  | .confirmConsumedSource _ _ => (.ok none : Except Err (Option ConsumedSource))
  | .deliver delivery => some (⟨delivery.operationID, 5⟩ : DeliveryReceipt)
  | .deleteMessage _ _ => false
  | .now => (⟨1⟩ : Time)
  | .wait _ => Wake.timeout
  | .putSecret _ _ | .dropSecret _ | .takeSecret _ | .setSecretInFlight _ _ => ()
  | .secretIsInFlight _ => ()

/-- A question is delivered, nobody answers, and the timeout cancels it. -/
theorem timed_out_delivered_and_answered_once :
    ∃ (process : Process) (response : InteractionResponse),
      Opens ∅ ⟨∅, ∅⟩ ∧
        Relation.ReflTransGen (Step sampleFlow Call.Unconfirming) ⟨{ store := ⟨∅, ∅⟩ }, [], []⟩
          process ∧
        deliveries (operationID sampleFlow sampleEnvelope) process.trace = 1 ∧
        replies sampleFlow (operationID sampleFlow sampleEnvelope) process.trace = 1 ∧
        .returned (.resolve 2 sampleEnvelope) (.reply (some (.ok (.stored response)))) ∈
          process.trace ∧
        ∃ operation,
          process.state.store.memory.lookup (operationID sampleFlow sampleEnvelope) =
            some operation ∧
          operation.response = some response ∧
          validResponse {} operation.request response := by
  have hopens : Opens ∅ ⟨∅, ∅⟩ := .opened .done rfl
  have hrun : Relation.ReflTransGen (Step sampleFlow Call.Unconfirming) _ _ :=
    Pool.steps_call (k := .resolve 2 sampleEnvelope) unanswered trivial { store := ⟨∅, ∅⟩ } []
  have hreturned : Event.returned (Call.resolve 2 sampleEnvelope)
      (.reply (some (.ok (.stored ⟨ofText "r", .cancelled, none, .other []⟩)))) ∈
        (Call.work sampleFlow (.resolve 2 sampleEnvelope)).playTrace surroundings unanswered
          (Call.resolve 2 sampleEnvelope) { store := ⟨∅, ∅⟩ } [] :=
    mem_cons_self
  exact ⟨_, _, hopens, hrun, rfl, rfl, hreturned,
    (delivered_and_answered_once hopens hrun _).2.2 _ _ hreturned rfl⟩

end Bria.InteractionFlow
