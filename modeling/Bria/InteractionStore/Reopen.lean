import Bria.InteractionStore.Steps

/-!
# Opening the interaction store again

Every change replaces the file, and the next opening checks the whole of it. The calls check the
operation that they write. A swap also looks whether another operation waits for typed text, but
`Create` does not, so it can write a second one that waits.
-/

namespace Bria.InteractionStore

open Go RuntimeProtocol List

variable {operation : Operation} {store : FileStore} {operations kept file : Operations}
  {id : GoString}

/-! ## Checks of what is read -/

theorem requestLength_json (request : InteractionRequest) :
    requestLength (requestJSON request) = requestLength request := by
  have hquestion : questionLength ∘ cloneQuestion = questionLength := by
    funext question
    simp only [Function.comp, questionLength, cloneQuestion, elems_appended]
  have hlike := like_json request
  rw [hlike.same]
  simp only [requestLength, hlike.questions, hlike.decisions, map_map, hquestion]

/-- An option that answers a question of a valid request is UTF-8. -/
theorem jsonText_of_option {limits : Limits} {request : InteractionRequest} {question : Question}
    {answer : GoString} (hvalid : validInteractionRequest limits request)
    (hquestion : question ∈ elems request.questions) (h : hasQuestionOption question answer) :
    jsonText answer = answer := by
  have hall : (elems request.questions).all (validQuestion limits) := by
    simp only [validInteractionRequest, and_eq_true] at hvalid
    cases hkind : request.kind <;> simp_all
  have hoptions := all_eq_true.mp hall question hquestion
  simp only [validQuestion, and_eq_true] at hoptions
  obtain ⟨option, hoption, hlabel⟩ := any_eq_true.mp h
  have hvalid := all_eq_true.mp hoptions.1.2 option hoption
  simp only [validRequiredText, validText, and_eq_true] at hvalid
  rw [← of_decide_eq_true hlabel]
  exact (jsonText_eq_self_iff _).mpr hvalid.1.2.1

/-- A valid operation is valid when it comes back from JSON. -/
theorem validOperation_json (h : validOperation operation) : validOperation operation.json := by
  have hlike := like_json operation.request
  have hquestions : operation.json.questions = operation.questions.map cloneQuestion :=
    hlike.questions
  have hquestion : operation.json.question = operation.question.map cloneQuestion := by
    unfold Operation.question
    rw [hquestions]
    exact getElem?_map
  have hoption : ∀ question answer, hasQuestionOption (cloneQuestion question) answer =
      hasQuestionOption question answer := by
    intro question answer
    simp only [hasQuestionOption, cloneQuestion, elems_appended]
  simp only [validOperation, and_eq_true] at h ⊢
  obtain ⟨⟨⟨⟨⟨⟨⟨hidentity, hencodes⟩, hindex⟩, hanswers⟩, hcallback⟩, hprogress⟩, hselection⟩,
    hphase⟩ := h
  have hmap : operation.json.answerMap =
      operation.answerMap.update fun _ values => some (values.map jsonText) := by
    obtain ⟨answers, hsome⟩ := Option.isSome_iff_exists.mp hanswers
    simp only [Operation.answerMap, Operation.json, hsome, map_some, getD_some]
  refine ⟨⟨⟨⟨⟨⟨⟨hidentity, ?_⟩, ?_⟩, ?_⟩, hcallback⟩, ?_⟩, ?_⟩, ?_⟩
  · simp only [encodesInteractionRequest, and_eq_true] at hencodes ⊢
    refine ⟨hlike.valid hencodes.1, ?_⟩
    simpa only [Operation.json, requestLength_json] using hencodes.2
  · rw [hquestions, length_map]
    exact hindex
  · simpa [Operation.json] using hanswers
  · have hencodes : validInteractionRequest {} operation.request := by
      simp only [encodesInteractionRequest, and_eq_true] at hencodes
      exact hencodes.1
    have hkind : operation.json.request.kind = operation.request.kind := rfl
    unfold validProgress at hprogress ⊢
    rw [hquestions, ← map_take, all_map, hmap, hkind]
    cases hkinds : operation.request.kind with
    | question =>
      simp only [hkinds, Map.length_update, and_eq_true] at hprogress ⊢
      refine ⟨hprogress.1, all_eq_true.mpr fun question hmem => ?_⟩
      have hanswered := all_eq_true.mp hprogress.2 question hmem
      obtain ⟨values, hlookup, hvalues⟩ := (Option.any_eq_true _ _).mp hanswered
      refine (Option.any_eq_true _ _).mpr ⟨values.map jsonText, ?_, ?_⟩
      · simp only [cloneQuestion, lookup_update]
        rw [hlookup]
        rfl
      rcases values with _ | ⟨answer, _ | ⟨_, _⟩⟩
      · cases hvalues
      · simp only [map_cons, map_nil, hoption, or_eq_true] at hvalues ⊢
        refine hvalues.imp id fun hold => ?_
        rwa [jsonText_of_option hencodes (mem_of_mem_take hmem) hold]
      · cases hvalues
    | _ =>
      simp only [hkinds, and_eq_true, decide_eq_true_eq] at hprogress ⊢
      refine ⟨hprogress.1, length_eq_zero_iff.mp ?_⟩
      rw [Map.length_update, hprogress.2, length_nil]
  · unfold validSelection at hselection ⊢
    rw [hquestion, Option.any_map]
    simp only [cloneQuestion, elems_appended]
    exact hselection
  have hresponse : operation.json.response = operation.response := by
    rcases hmade : operation.response with _ | response
    · simp only [Operation.json, hmade, Option.map_none]
    have hvalid : validResponse {} operation.request response := by
      unfold validPhase at hphase
      cases hphases : operation.phase <;> simp_all
    simp only [Operation.json, hmade, map_some, responseJSON_of_valid hvalid]
  have hkept : operation.json.phase = operation.phase := rfl
  unfold validPhase at hphase ⊢
  rw [hquestion, hresponse, hkept]
  simp only [Option.any_map, cloneQuestion]
  cases hphases : operation.phase with
  | responseReady =>
    simp only [hphases, and_eq_true, Option.any_eq_true] at hphase ⊢
    obtain ⟨hcarried, response, hmade, hvalid⟩ := hphase
    exact ⟨hcarried, response, hmade, hlike.response hvalid⟩
  | providerResponseUnknown | providerResponseConfirmed =>
    simp only [hphases, and_eq_true, Option.all_eq_true] at hphase ⊢
    obtain ⟨⟨⟨hcarried, hsecret⟩, hvalid⟩, hsource⟩ := hphase
    refine ⟨⟨⟨hcarried, hsecret⟩, fun response hmade => hlike.response (hvalid response hmade)⟩, ?_⟩
    simp only [or_eq_true, and_eq_true, decide_eq_true_eq] at hsource ⊢
    refine hsource.imp id fun hold => ⟨hold.1, ?_⟩
    rw [Operation.json, hold.2]
    rfl
  | _ =>
    rw [hphases] at hphase
    exact hphase

/-! ## Operations that wait -/

/-- The number of operations that wait for typed text. -/
def waiting (operations : Operations) : Nat :=
  operations.entries.countP fun e => pendingTextPhase e.2.phase

theorem validState_iff : validState operations ↔
    operations.entries.length ≤ 10000 ∧ Keyed operations ∧ waiting operations ≤ 1 := by
  constructor
  · intro h
    have hkeyed := keyed_of_validState h
    simp only [validState, and_eq_true, decide_eq_true_eq] at h
    exact ⟨h.1.1, hkeyed, by rw [waiting, countP_eq_length_filter]; exact h.2⟩
  rintro ⟨hlength, hkeyed, hwaiting⟩
  simp only [validState, and_eq_true, decide_eq_true_eq, all_eq_true]
  refine ⟨⟨hlength, fun e he => ?_⟩, by rwa [waiting, countP_eq_length_filter] at hwaiting⟩
  obtain ⟨hid, hvalid⟩ := hkeyed e.1 e.2 (mem_entries.mp he)
  exact ⟨hid.symm, hvalid⟩

theorem waiting_reread : waiting (reread operations) = waiting operations := by
  simp only [waiting, reread, Map.update, map_some, filterMap_eq_map', countP_map]
  rfl

theorem validState_reread (h : validState operations) : validState (reread operations) := by
  obtain ⟨hlength, hkeyed, hwaiting⟩ := validState_iff.mp h
  refine validState_iff.mpr ⟨?_, fun id operation hlookup => ?_, by rwa [waiting_reread]⟩
  · rwa [reread, Map.length_update]
  rw [reread, lookup_update] at hlookup
  obtain ⟨read, hread, heq⟩ := bind_eq_some_iff.mp hlookup
  obtain rfl := some.inj heq
  obtain ⟨hid, hvalid⟩ := hkeyed id read hread
  exact ⟨hid, validOperation_json hvalid⟩

theorem waiting_insert : waiting (operations.insert id operation) =
    waiting (operations.erase id) + if pendingTextPhase operation.phase then 1 else 0 := by
  rw [waiting, AList.entries_insert, countP_cons]
  rfl

theorem waiting_erase (h : operations.lookup id = some operation) : waiting operations =
    waiting (operations.erase id) + if pendingTextPhase operation.phase then 1 else 0 := by
  rw [waiting, (Map.perm_entries h).countP_eq, countP_cons]
  rfl

/-- Nothing else waits. -/
theorem waiting_erase_eq_zero (h : hasOtherPendingText operations id = false) :
    waiting (operations.erase id) = 0 := by
  rw [waiting, countP_eq_zero]
  intro e he
  obtain ⟨hne, hlookup⟩ := of_lookup_erase (mem_entries.mp he)
  simp only [hasOtherPendingText, any_eq_false] at h
  simpa [hne] using h e (mem_entries.mpr hlookup)

theorem validState_of_lookup (h : validState operations)
    (hsub : ∀ id operation, kept.lookup id = some operation →
      operations.lookup id = some operation) : validState kept := by
  obtain ⟨hlength, hkeyed, hwaiting⟩ := validState_iff.mp h
  have hsubperm : kept.entries.Subperm operations.entries :=
    subperm_of_subset kept.nodupKeys.nodup fun e he =>
      mem_entries.mpr (hsub e.1 e.2 (mem_entries.mp he))
  exact validState_iff.mpr ⟨le_trans hsubperm.length_le hlength,
    fun id operation hlookup => hkeyed id operation (hsub id operation hlookup),
    le_trans (hsubperm.countP_le _) hwaiting⟩

theorem validState_insert (h : validState operations) (hid : operation.id = id)
    (hvalid : validOperation operation) (hroom : (operations.erase id).entries.length < 10000)
    (hone : pendingTextPhase operation.phase → waiting (operations.erase id) = 0) :
    validState (operations.insert id operation) := by
  obtain ⟨-, hkeyed, hwaiting⟩ := validState_iff.mp h
  refine validState_iff.mpr ⟨?_, fun id' operation' hlookup => ?_, ?_⟩
  · rw [AList.entries_insert, length_cons]
    exact hroom
  · rcases of_lookup_insert hlookup with ⟨rfl, rfl⟩ | hlookup
    · exact ⟨hid, hvalid⟩
    · exact hkeyed id' operation' hlookup
  have hle : waiting (operations.erase id) ≤ 1 :=
    le_trans (kerase_sublist id operations.entries).countP_le hwaiting
  rw [waiting_insert]
  split
  · rw [hone ‹_›]
  · exact hle

/-! ## Runs -/

/-- A call of the store, and how its write ends. -/
inductive Change where
  | create (w : Write) (operation : Operation)
  | compareAndSwap (w : Write) (id : GoString) (revision : Nat) (next : Operation)
  | deleteConfirmed (w : Write) (id : GoString) (revision : Nat)

/-- The store after a call. -/
def Change.perform : Change → FileStore → FileStore
  | .create w operation, store => (InteractionStore.create w operation store).2
  | .compareAndSwap w id revision next, store =>
    (InteractionStore.compareAndSwap w id revision next store).2
  | .deleteConfirmed w id revision, store =>
    (InteractionStore.deleteConfirmed w id revision store).2

/-- Whether a call creates an operation that waits for typed text while another waits. -/
def Change.crowds : Change → FileStore → Bool
  | .create w operation, store =>
    w.lands && (checkCreate operation store).isOk && pendingTextPhase operation.phase &&
      waiting store.memory ≠ 0
  | _, _ => false

/-- Whether a call of a run creates an operation that waits while another waits. -/
def crowded : List Change → FileStore → Bool
  | [], _ => false
  | change :: changes, store => change.crowds store || crowded changes (change.perform store)

/-- What is read of the file passes `validateState`, and the store is opened. -/
def Reopens (store : FileStore) : Prop :=
  validState (reread store.file) ∧ (openFileStore .done store.file).1.isSome

/-- What is checked can be opened. -/
theorem reopens_iff_valid : Reopens store ↔ validState (reread store.file) := by
  refine and_iff_left_of_imp fun h => ?_
  unfold reread at h
  unfold openFileStore
  simp only [h, Bool.not_true, false_eq_true, if_false, if_true]
  split <;> rfl

/-- The operations in memory are valid, and the store can be opened again. -/
def Sound (store : FileStore) : Prop := validState store.memory ∧ Reopens store

theorem Sound.save (h : Sound store) (w : Write) (hvalid : validState operations) :
    Sound (store.save w operations) := by
  have hreopens := reopens_iff_valid.mpr (validState_reread hvalid :
    validState (reread (⟨operations, operations⟩ : FileStore).file))
  cases w with
  | refused => exact h
  | late => exact ⟨h.1, hreopens⟩
  | done => exact ⟨hvalid, hreopens⟩

theorem Sound.opens (h : Opens file store) : Sound store := by
  obtain ⟨read, hvalid, rfl | ⟨rfl, hread⟩⟩ := h.read
  · have hpruned : validState (pruneConfirmed read) :=
      validState_of_lookup hvalid fun id operation hlookup => by
        rw [lookup_pruneConfirmed] at hlookup
        exact (filter_eq_some_iff.mp hlookup).1
    exact ⟨hpruned, reopens_iff_valid.mpr (validState_reread hpruned)⟩
  · exact ⟨hvalid, reopens_iff_valid.mpr (hread ▸ hvalid)⟩

/-- A swap: if the new operation waits, the old one did, or nothing else does. -/
theorem Sound.compareAndSwap (h : Sound store) (w : Write) (id : GoString) (revision : Nat)
    (next : Operation) : Sound (compareAndSwap w id revision next store).2 := by
  rcases compareAndSwap_cases w id revision next store with
    ⟨hsame, -⟩ | ⟨current, hswap, hid, hsave, -, hother⟩
  · rwa [hsame]
  rw [hsave]
  refine h.save w (validState_insert h.1 hid hswap.valid ?_ fun hpending => ?_)
  · have hlength := (Map.perm_entries hswap.lookup).length_eq
    have hbound := (validState_iff.mp h.1).1
    rw [length_cons] at hlength
    omega
  have hphase : next.phase = .waitingText ∨ next.phase = .secretDeletionUnknown := by
    simp only [pendingTextPhase, or_eq_true, decide_eq_true_eq] at hpending
    exact hpending
  rcases hphase with hphase | hphase
  · exact waiting_erase_eq_zero (hother hphase)
  -- only an operation that waits for text can begin to delete a secret
  have hcurrent : pendingTextPhase current.phase := by
    have htransition := hswap.transition
    rw [hphase] at htransition
    cases hfrom : current.phase <;> simp_all [validTransition, pendingTextPhase]
  have hwaiting := waiting_erase hswap.lookup
  have hbound := (validState_iff.mp h.1).2.2
  rw [if_pos hcurrent] at hwaiting
  omega

theorem Sound.deleteConfirmed (h : Sound store) (w : Write) (id : GoString) (revision : Nat) :
    Sound (deleteConfirmed w id revision store).2 := by
  unfold InteractionStore.deleteConfirmed
  split
  · exact h
  split
  · exact h
  split
  · exact h
  exact h.save w (validState_of_lookup h.1 fun id operation hlookup =>
    (of_lookup_erase hlookup).2)

theorem checkCreate_ok (h : checkCreate operation store = .ok ()) :
    validOperation (created operation) ∧ store.memory.entries.length < 10000 ∧
      (store.memory.erase operation.id).entries = store.memory.entries := by
  obtain ⟨hvalid, h⟩ := check_eq_ok.mp h
  obtain ⟨habsent, hroom⟩ := check_eq_ok.mp h
  refine ⟨by simpa using refuse_eq_ok.mp hvalid, by simpa using refuse_eq_ok.mp hroom,
    kerase_of_notMem_keys fun hmem => ?_⟩
  have hnone : store.memory.lookup operation.id = none := by simpa using refuse_eq_ok.mp habsent
  exact AList.lookup_eq_none.mp hnone hmem

theorem Sound.create (h : Sound store) {w : Write}
    (hroom : (Change.create w operation).crowds store = false) :
    Sound (create w operation store).2 := by
  unfold InteractionStore.create
  split
  · exact h
  rename_i hcheck
  obtain ⟨hvalid, hlength, herase⟩ := checkCreate_ok hcheck
  by_cases hlands : w.lands
  · refine h.save w (validState_insert h.1 rfl hvalid (herase ▸ hlength) fun hpending => ?_)
    have hphase : pendingTextPhase operation.phase := hpending
    rw [waiting, herase, ← waiting]
    simpa [Change.crowds, hlands, hcheck, hphase, Except.isOk, Except.toBool] using hroom
  cases w with
  | refused => exact h
  | late | done => exact absurd rfl hlands

theorem Sound.perform (h : Sound store) {change : Change} (hroom : change.crowds store = false) :
    Sound (change.perform store) := by
  cases change with
  | create w operation => exact h.create hroom
  | compareAndSwap w id revision next => exact h.compareAndSwap w id revision next
  | deleteConfirmed w id revision => exact h.deleteConfirmed w id revision

end Bria.InteractionStore
