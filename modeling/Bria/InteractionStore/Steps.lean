import Bria.InteractionStore.Store

/-!
# What the interaction store keeps

A swap takes an operation from one phase to the next, in memory and in the file at once, or in the
file alone if the write fails late. So what a swap keeps stays true of both copies of an operation
until it is confirmed (`Kept`, `Closed`). Copies and JSON only make empty slices nil, which no check
of a valid operation depends on.
-/

namespace Bria.InteractionStore

open Go RuntimeProtocol

variable {operation current next : Operation} {store store' : FileStore} {id id' : GoString}
  {w : Write} {revision : Nat} {p : Operation → Prop} {α : Type} {file : Operations}

/-! ## Copies -/

/-- A slice has its elements. -/
@[simp]
theorem elems_appended (s : Slice α) : elems (appended s) = elems s := by
  unfold appended
  split
  · rename_i h
    rw [h]
    rfl
  · rfl

@[simp]
theorem elems_map {β : Type} (s : Slice α) (f : List α → List β) (hf : f [] = []) :
    elems (s.map f) = f (elems s) := by
  cases s with
  | none => exact hf.symm
  | some l => rfl

theorem elems_cloneRequest (request : InteractionRequest) :
    elems (cloneRequest request).questions = (elems request.questions).map cloneQuestion :=
  elems_map _ _ rfl

theorem validQuestion_clone (limits : Limits) (question : Question) :
    validQuestion limits (cloneQuestion question) = validQuestion limits question := by
  simp only [validQuestion, cloneQuestion, elems_appended]

/-- A request with the same elements in its slices, and nil decisions if they were nil. -/
structure Like (request request' : InteractionRequest) : Prop where
  same : request' = { request with
    questions := request'.questions, decisions := request'.decisions }
  questions : elems request'.questions = (elems request.questions).map cloneQuestion
  decisions : elems request'.decisions = elems request.decisions
  isNone : request.decisions.isNone → request'.decisions.isNone

theorem like_clone (request : InteractionRequest) : Like request (cloneRequest request) where
  same := rfl
  questions := elems_cloneRequest request
  decisions := elems_appended _
  isNone h := by
    rw [isNone_iff_eq_none] at h
    simp [cloneRequest, h, appended, elems]

theorem like_json (request : InteractionRequest) : Like request (requestJSON request) where
  same := rfl
  questions := (elems_appended _).trans (elems_cloneRequest request)
  decisions := elems_appended _
  isNone := (like_clone request).isNone

variable {request request' : InteractionRequest} {limits : Limits}

theorem Like.valid (h : Like request request') (hvalid : validInteractionRequest limits request) :
    validInteractionRequest limits request' := by
  obtain ⟨hsame, hquestions, hdecisions, hnone⟩ := h
  have hids : ((elems request.questions).map cloneQuestion).map Question.id =
      (elems request.questions).map Question.id := by
    rw [map_map]
    rfl
  have hall : ((elems request.questions).map cloneQuestion).all (validQuestion limits) =
      (elems request.questions).all (validQuestion limits) := by
    rw [List.all_map]
    exact List.all_congr rfl fun question => validQuestion_clone limits question
  rw [hsame]
  simp only [validInteractionRequest, hquestions, hdecisions, hids, hall, length_map, ne_eq,
    map_eq_nil_iff] at hvalid ⊢
  cases hkind : request.kind with
  | question =>
    simp only [hkind, and_eq_true] at hvalid ⊢
    exact ⟨hvalid.1, ⟨⟨hvalid.2.1.1.1, hnone hvalid.2.1.1.2⟩, hvalid.2.1.2⟩, hvalid.2.2⟩
  | commandApproval | fileApproval | other text => simpa only [hkind] using hvalid

theorem questionOf_map (questions : List Question) (id : GoString) :
    questionOf (questions.map cloneQuestion) id = (questionOf questions id).map cloneQuestion := by
  unfold questionOf
  rw [← List.map_reverse, List.find?_map]
  rfl

/-- A response to a request is one to any that is like it. -/
theorem Like.response (h : Like request request') {response : InteractionResponse}
    (hvalid : validResponse limits request response) : validResponse limits request' response := by
  have hrequest : validInteractionRequest limits request →
      validInteractionRequest limits request' := h.valid
  obtain ⟨hsame, hquestions, hdecisions, -⟩ := h
  have hanswers : ∀ id answers, ((questionOf ((elems request.questions).map cloneQuestion) id).any
      fun question => validAnswers limits question answers) =
      (questionOf (elems request.questions) id).any fun question =>
        validAnswers limits question answers := by
    intro id answers
    rw [questionOf_map]
    cases questionOf (elems request.questions) id with
    | none => rfl
    | some question => simp [validAnswers, cloneQuestion]
  simp only [validResponse, and_eq_true] at hvalid ⊢
  obtain ⟨⟨⟨hvalid', hresponse⟩, hid⟩, hkind⟩ := hvalid
  refine ⟨⟨⟨hrequest hvalid', hresponse⟩, ?_⟩, ?_⟩
  · rw [hsame]
    exact hid
  rw [hsame]
  simpa only [hquestions, hdecisions, hanswers, length_map] using hkind

theorem responseJSON_of_valid {response : InteractionResponse}
    (h : validResponse limits request response) : responseJSON response = response := by
  simp only [validResponse, validInteractionResponse, and_eq_true] at h
  obtain ⟨⟨⟨-, -, houtcome⟩, -⟩, -⟩ := h
  have hfilter : response.answers.filter (·.entries ≠ []) = response.answers := by
    rcases hanswers : response.answers with _ | answers
    · rfl
    have hne : answers.entries ≠ [] := by
      cases houtcomes : response.outcome with
      | cancelled => simp [houtcomes, hanswers] at houtcome
      | other text => simp [houtcomes] at houtcome
      | answered =>
        simp only [houtcomes, hanswers, all_some, and_eq_true, decide_eq_true_eq] at houtcome
        exact houtcome.2.1.1
    rw [Option.filter_some_pos (by simpa using hne)]
  simp only [responseJSON, hfilter]

/-! ## Swaps -/

/-- A swap that the store makes of an operation. -/
structure Swaps (store : FileStore) (id : GoString) (current next : Operation) : Prop where
  lookup : store.memory.lookup id = some current
  identity : sameIdentity current next
  transition : validTransition current.phase next.phase
  valid : validOperation (swapped current next)

/-- `CompareAndSwap` changes nothing, or it swaps the operation and writes it. -/
theorem compareAndSwap_cases (w : Write) (id : GoString) (revision : Nat) (next : Operation)
    (store : FileStore) :
    (compareAndSwap w id revision next store).2 = store ∧
        (∀ updated, (compareAndSwap w id revision next store).1 ≠ .ok (some updated)) ∨
      ∃ current, Swaps store id current next ∧ next.id = id ∧
        (compareAndSwap w id revision next store).2 =
          store.save w (store.memory.insert id (swapped current next)) ∧
        (∀ updated, (compareAndSwap w id revision next store).1 = .ok (some updated) →
          w = .done ∧ updated = swapped current next) ∧
        (next.phase = .waitingText → hasOtherPendingText store.memory id = false) := by
  unfold compareAndSwap
  split
  · exact .inl ⟨rfl, fun _ h => by cases h⟩
  rename_i hnamed
  split
  · exact .inl ⟨rfl, fun _ h => by cases h⟩
  rename_i current hcurrent
  obtain ⟨hlookup, -⟩ := filter_eq_some_iff.mp hcurrent
  split
  · exact .inl ⟨rfl, fun _ h => by cases h⟩
  rename_i hcheck
  obtain ⟨hidentity, hcheck⟩ := check_eq_ok.mp hcheck
  obtain ⟨htransition, hcheck⟩ := check_eq_ok.mp hcheck
  obtain ⟨hother, hcheck⟩ := check_eq_ok.mp hcheck
  have hvalid := of_check hcheck
  have hid : next.id = id := by
    simp only [or_eq_true, decide_eq_true_eq, not_or, ne_eq, not_not] at hnamed
    exact hnamed.2
  refine .inr ⟨current, ⟨hlookup, ?_, ?_, ?_⟩, hid, rfl, fun updated h => ?_, fun hphase => ?_⟩
  · simpa using refuse_eq_ok.mp hidentity
  · simpa using refuse_eq_ok.mp htransition
  · simpa using refuse_eq_ok.mp hvalid
  · split at h
    · rename_i hdone
      exact ⟨hdone, (some.inj (ok.inj h)).symm⟩
    · cases h
  have hcurrent : current.phase ≠ .waitingText := by
    intro hfrom
    rw [hphase, hfrom] at htransition
    cases refuse_eq_ok.mp htransition
  simpa [hphase, hcurrent] using refuse_eq_ok.mp hother

/-- `Create` changes nothing, or it writes an operation that memory did not have. -/
theorem create_cases (w : Write) (operation : Operation) (store : FileStore) :
    (create w operation store).2 = store ∧ (∀ made, (create w operation store).1 ≠ .ok made) ∨
      store.memory.lookup operation.id = none ∧ validOperation (created operation) ∧
        (create w operation store).2 =
          store.save w (store.memory.insert operation.id (created operation)) ∧
        ∀ made, (create w operation store).1 = .ok made → w = .done ∧ made = created operation := by
  unfold create
  split
  · exact .inl ⟨rfl, fun _ h => by cases h⟩
  rename_i hcheck
  obtain ⟨hvalid, hcheck⟩ := check_eq_ok.mp hcheck
  obtain ⟨habsent, -⟩ := check_eq_ok.mp hcheck
  refine .inr ⟨by simpa using refuse_eq_ok.mp habsent, by simpa using refuse_eq_ok.mp hvalid, rfl,
    fun made h => ?_⟩
  split at h
  · rename_i hdone
    exact ⟨hdone, (ok.inj h).symm⟩
  · cases h

/-- `ErrOperationExists` says that the operation is in memory. -/
theorem exists_of_create {e : Err} (h : (create w operation store).1 = .error e)
    (hexists : e.is .operationExists) : (store.memory.lookup operation.id).isSome := by
  unfold create at h
  split at h
  · rename_i e' hcheck
    obtain rfl := error.inj h
    simp only [checkCreate, validateOperation, refuse_bind_eq_error] at hcheck
    rcases hcheck with ⟨-, rfl⟩ | ⟨-, hcheck⟩
    · cases hexists
    rcases hcheck with ⟨hsome, rfl⟩ | ⟨-, hcheck⟩
    · exact hsome
    unfold refuse at hcheck
    split at hcheck
    · obtain rfl := error.inj hcheck
      cases hexists
    · cases hcheck
  · split at h
    · cases h
    obtain rfl := error.inj h
    cases hexists

/-! ## What is kept -/

/-- The operations are under their ids, and valid. -/
def Keyed (operations : Operations) : Prop :=
  ∀ id operation, operations.lookup id = some operation →
    operation.id = id ∧ validOperation operation

/-- There is an operation with a property under an id. -/
def Holds (p : Operation → Prop) (id : GoString) (operations : Operations) : Prop :=
  ∃ operation, operations.lookup id = some operation ∧ p operation

/-- Both copies of the store have one. -/
def Kept (p : Operation → Prop) (id : GoString) (store : FileStore) : Prop :=
  Holds p id store.memory ∧ Holds p id store.file

/-- A property of operations that are not confirmed, which swaps and JSON keep. -/
structure Closed (p : Operation → Prop) : Prop where
  swapped : ∀ {current next : Operation}, p current →
    validTransition current.phase next.phase →
    next.phase ≠ .providerResponseConfirmed → p (swapped current next)
  json : ∀ {operation : Operation}, p operation → p operation.json
  unconfirmed : ∀ {operation : Operation}, p operation →
    operation.phase ≠ .providerResponseConfirmed

/-- The operations that may come of a store by a change: what was there is still there, and what is
closed is kept. -/
structure Later (store store' : FileStore) : Prop where
  present : ∀ id, (store.memory.lookup id).isSome → (store'.memory.lookup id).isSome
  kept : ∀ p id, Closed p → Kept p id store → Kept p id store'

theorem Later.refl (store : FileStore) : Later store store := ⟨fun _ h => h, fun _ _ _ h => h⟩

theorem Later.trans {store1 store2 : FileStore} (h : Later store store1) (h' : Later store1 store2) :
    Later store store2 :=
  ⟨fun id hid => h'.present id (h.present id hid),
    fun p id hp hkept => h'.kept p id hp (h.kept p id hp hkept)⟩

/-- A write of one operation, of which the store keeps what is closed. -/
theorem later_save
    (hp : ∀ p, Closed p → ∀ current, store.memory.lookup id = some current → p current → p operation) :
    Later store (store.save w (store.memory.insert id operation)) := by
  have hkept : ∀ p id', Closed p → Kept p id' store →
      Holds p id' (store.memory.insert id operation) := by
    rintro p id' hclosed ⟨⟨current, hcurrent, hpc⟩, -⟩
    unfold Holds
    rw [lookup_insert]
    split
    · rename_i heq
      subst heq
      exact ⟨operation, rfl, hp p hclosed current hcurrent hpc⟩
    · exact ⟨current, hcurrent, hpc⟩
  cases w with
  | refused => exact .refl store
  | late => exact ⟨fun _ h => h, fun p id' hclosed h => ⟨h.1, hkept p id' hclosed h⟩⟩
  | done =>
    refine ⟨fun id' h => ?_, fun p id' hclosed h =>
      ⟨hkept p id' hclosed h, hkept p id' hclosed h⟩⟩
    change ((store.memory.insert id operation).lookup id').isSome
    rw [lookup_insert]
    split
    · rfl
    · exact h

theorem later_compareAndSwap (hnext : next.phase ≠ .providerResponseConfirmed) :
    Later store (compareAndSwap w id revision next store).2 := by
  rcases compareAndSwap_cases w id revision next store with ⟨hsame, -⟩ | ⟨current, hswap, -, hsave, -⟩
  · rw [hsame]
    exact .refl store
  rw [hsave]
  refine later_save fun p hclosed current' hcurrent' hp => ?_
  obtain rfl := mem_unique hswap.lookup hcurrent'
  exact hclosed.swapped hp hswap.transition hnext

theorem later_create : Later store (create w operation store).2 := by
  rcases create_cases w operation store with ⟨hsame, -⟩ | ⟨habsent, -, hsave, -⟩
  · rw [hsame]
    exact .refl store
  rw [hsave]
  refine later_save fun p _ current hcurrent _ => ?_
  rw [habsent] at hcurrent
  cases hcurrent

theorem Keyed.save (h : Keyed store.memory) (hid : operation.id = id)
    (hvalid : validOperation operation) :
    Keyed (store.save w (store.memory.insert id operation)).memory := by
  cases w with
  | done =>
    intro id' operation' hlookup
    change (store.memory.insert id operation).lookup id' = some operation' at hlookup
    rcases of_lookup_insert hlookup with ⟨rfl, rfl⟩ | hlookup
    · exact ⟨hid, hvalid⟩
    · exact h id' operation' hlookup
  | refused => exact h
  | late => exact h

theorem Keyed.compareAndSwap (h : Keyed store.memory) :
    Keyed (compareAndSwap w id revision next store).2.memory := by
  rcases compareAndSwap_cases w id revision next store with
    ⟨hsame, -⟩ | ⟨current, hswap, hid, hsave, -⟩
  · rwa [hsame]
  rw [hsave]
  exact h.save hid hswap.valid

theorem Keyed.create (h : Keyed store.memory) : Keyed (create w operation store).2.memory := by
  rcases create_cases w operation store with ⟨hsame, -⟩ | ⟨-, hvalid, hsave, -⟩
  · rwa [hsame]
  rw [hsave]
  exact h.save rfl hvalid

/-! ## Opening -/

/-- A check of all entries. -/
theorem keyed_of_validState {operations : Operations} (h : validState operations) :
    Keyed operations := by
  simp only [validState, and_eq_true, all_eq_true, decide_eq_true_eq] at h
  intro id operation hlookup
  obtain ⟨hid, hvalid⟩ := h.1.2 _ (mem_entries.mpr hlookup)
  exact ⟨hid.symm, hvalid⟩

/-- What pruning leaves. -/
theorem lookup_pruneConfirmed (operations : Operations) (id : GoString) :
    (pruneConfirmed operations).lookup id =
      (operations.lookup id).filter fun operation =>
        operation.phase ≠ .providerResponseConfirmed := by
  rw [pruneConfirmed, lookup_update]
  cases operations.lookup id with
  | none => rfl
  | some operation =>
    by_cases h : operation.phase = .providerResponseConfirmed <;> simp [Option.filter, h]

/-- What the next opening reads of a file. -/
def reread (file : Operations) : Operations := file.update fun _ operation => some operation.json

/-- An opened store has what was read and checked, perhaps without what is confirmed. -/
theorem Opens.read (h : Opens file store) :
    ∃ read, validState read ∧ (store = ⟨pruneConfirmed read, pruneConfirmed read⟩ ∨
      store.memory = read ∧ reread store.file = read) := by
  induction h with
  | @opened file file' operations w h =>
    unfold openFileStore at h
    dsimp only at h
    split at h
    · cases h
    rename_i hvalid
    refine ⟨reread file, by unfold reread; simpa using hvalid, ?_⟩
    split at h
    · obtain ⟨hsome, hfile⟩ := Prod.mk.inj h
      split at hsome
      · rename_i hdone
        subst hdone
        exact .inl (congrArg₂ Stored.mk (some.inj hsome).symm hfile.symm)
      · cases hsome
    obtain ⟨hsome, rfl⟩ := Prod.mk.inj h
    exact .inr ⟨(some.inj hsome).symm, rfl⟩
  | failed _ _ _ ih => exact ih

/-- The operations of an opened store are under their ids. -/
theorem Keyed.opens (h : Opens file store) : Keyed store.memory := by
  obtain ⟨read, hvalid, rfl | ⟨rfl, -⟩⟩ := h.read
  · intro id operation hlookup
    rw [lookup_pruneConfirmed] at hlookup
    exact keyed_of_validState hvalid id operation (filter_eq_some_iff.mp hlookup).1
  · exact keyed_of_validState hvalid

/-- Opening keeps what is closed, in the file and in what is read of it. -/
theorem holds_openFileStore (hp : Closed p) (h : Holds p id file) :
    Holds p id (openFileStore w file).2 ∧
      ∀ operations, (openFileStore w file).1 = some operations → Holds p id operations := by
  obtain ⟨operation, hlookup, hop⟩ := h
  have hread : Holds p id (file.update fun _ operation => some operation.json) :=
    ⟨operation.json, by rw [lookup_update, hlookup]; rfl, hp.json hop⟩
  have hpruned : Holds p id
      (pruneConfirmed (file.update fun _ operation => some operation.json)) := by
    obtain ⟨op, hlookup', hop'⟩ := hread
    refine ⟨op, ?_, hop'⟩
    rw [lookup_pruneConfirmed, hlookup', Option.filter_some_pos (by simpa using hp.unconfirmed hop')]
  unfold openFileStore
  dsimp only
  split
  · exact ⟨⟨operation, hlookup, hop⟩, fun _ h => by cases h⟩
  split
  · constructor
    · dsimp only
      split
      · exact hpruned
      · exact ⟨operation, hlookup, hop⟩
    intro operations h
    split at h
    · exact some.inj h ▸ hpruned
    · cases h
  · exact ⟨⟨operation, hlookup, hop⟩, fun operations h => some.inj h ▸ hread⟩

/-- What is closed stays in both copies when the store is opened again. -/
theorem Kept.opens (hp : Closed p) (h : Holds p id file) (hopens : Opens file store) :
    Kept p id store := by
  induction hopens with
  | @opened file file' operations w hopen =>
    obtain ⟨hfile, hmemory⟩ := holds_openFileStore (w := w) hp h
    rw [hopen] at hfile hmemory
    exact ⟨hmemory operations rfl, hfile⟩
  | @failed file file' store w hopen later ih =>
    obtain ⟨hfile, -⟩ := holds_openFileStore (w := w) hp h
    rw [hopen] at hfile
    exact ih hfile

end Bria.InteractionStore
