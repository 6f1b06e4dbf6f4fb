import Bria.CardHistory.Entries

/-!
# Final answers in a history

`RestoreFinal` puts a final answer into the history of a card, in parts of at most 16 KiB. This file
says what the parts are (`finalParts_flatten`), which of them `RestoreFinal` finds, and what each
operation does to them: making room spares the parts of a pending answer, an insertion leaves them,
and `Append` drops the oldest entry of a full history, whether it is one or not.
-/

namespace Bria.CardHistory

open Go TelegramState List

/-- Whether an entry is a part of the final answer to a prompt. -/
def isFinal (messageID : GoString) (e : Entry) : Bool :=
  decide (e.turn = messageID ∧ e.kind = .final)

/-- The parts of the final answer to a prompt that are in the history. -/
def finals (messageID : GoString) (card : Card) : List GoString :=
  ((entries card).filter (isFinal messageID)).map Entry.item

variable {card next : Card} {messageID promptID item final text : GoString} {kind : HistoryKind}
  {e : Entry} {α β : Type} {index : Nat}

theorem isFinal_eq_true :
    isFinal messageID e ↔ e.turn = messageID ∧ e.kind = .final := decide_eq_true_iff

theorem isFinal_eq_false :
    isFinal messageID e = false ↔ ¬(e.turn = messageID ∧ e.kind = .final) :=
  decide_eq_false_iff_not

/-! ## The parts of an answer -/

/-- A size that is found is one of a UTF-8 text. -/
theorem validString_validSize (text : GoString) (size : Nat) :
    validString (text.take (validSize text size)) := by
  induction size with
  | zero => rfl
  | succ size ih =>
    unfold validSize
    split
    · assumption
    · exact ih

/-- The largest such size is found. -/
theorem le_validSize {k size : Nat} (hk : k ≤ size) (hvalid : validString (text.take k)) :
    k ≤ validSize text size := by
  induction size with
  | zero => exact hk
  | succ size ih =>
    unfold validSize
    split
    · exact hk
    rename_i hinvalid
    refine ih ?_
    by_contra hlt
    obtain rfl : k = size + 1 := by omega
    exact hinvalid hvalid

/-- The parts of an answer are not empty, and together they are the answer. -/
theorem finalParts_flatten {fuel : Nat} (hfuel : text.length ≤ fuel) (hvalid : validString text) :
    (finalParts fuel text).flatten = text ∧ ∀ part ∈ finalParts fuel text, part ≠ [] := by
  induction fuel generalizing text with
  | zero =>
    obtain rfl : text = [] := length_eq_zero_iff.mp (by omega)
    simp [finalParts]
  | succ fuel ih =>
    cases text with
    | nil => simp [finalParts]
    | cons b rest =>
      -- The first character fits, so the part has at least one byte.
      obtain ⟨w, hw, hw3, hle, -⟩ := validString_cons hvalid
      have hpos : w + 1 ≤ validSize (b :: rest) (min (b :: rest).length 16384) := by
        refine le_validSize ?_ (validString_take hw)
        simp only [length_cons]
        omega
      generalize hsize : validSize (b :: rest) (min (b :: rest).length 16384) = size at hpos
      have htake : validString ((b :: rest).take size) := by
        rw [← hsize]
        exact validString_validSize _ _
      have hrest : validString ((b :: rest).drop size) := by
        refine (validString_append_iff htake).mp ?_
        rw [take_append_drop]
        exact hvalid
      have hshort : ((b :: rest).drop size).length ≤ fuel := by
        simp only [length_drop, length_cons] at hfuel ⊢
        omega
      obtain ⟨hflatten, hparts⟩ := ih hshort hrest
      have hunfold : finalParts (fuel + 1) (b :: rest) =
          (b :: rest).take size :: finalParts fuel ((b :: rest).drop size) := by
        simp only [finalParts, isEmpty_cons, false_eq_true, if_false, hsize]
      rw [hunfold]
      refine ⟨?_, fun part hpart => ?_⟩
      · rw [flatten_cons, hflatten, take_append_drop]
      rcases mem_cons.mp hpart with rfl | hpart
      · simp only [ne_eq, take_eq_nil_iff, not_or]
        exact ⟨by omega, by simp⟩
      · exact hparts part hpart

/-! ## What `RestoreFinal` finds -/

/-- A list by its indices. -/
theorem mapIdx_eq_map_range (f : Nat → α → β) (l : List α) (zero : α) :
    l.mapIdx f = (List.range l.length).map fun i => f i (l.getD i zero) := by
  apply ext_getElem?
  intro i
  rw [getElem?_mapIdx, getElem?_map]
  rcases Nat.lt_or_ge i l.length with hi | hi
  · rw [getElem?_range hi, getElem?_eq_getElem hi, map_some, map_some,
      getD_eq_getElem?_getD, getElem?_eq_getElem hi, getD_some]
  rw [getElem?_eq_none hi, getElem?_eq_none (by rw [length_range]; exact hi)]
  rfl

theorem flatten_map_filter (p : α → Bool) (f : α → GoString) (l : List α) :
    ((l.filter p).map f).flatten = (l.map fun x => if p x then f x else []).flatten := by
  induction l with
  | nil => rfl
  | cons x l ih =>
    cases hp : p x with
    | true => rw [filter_cons_of_pos hp]; simp [hp, ih]
    | false => rw [filter_cons_of_neg (by simp [hp])]; simp [hp, ih]

/-- `RestoreFinal` looks for the parts that are in the history. -/
theorem retainedFinal_eq (h : Aligned card) (hmessage : messageID ≠ []) :
    retainedFinal card messageID = (finals messageID card).flatten := by
  have hfinals : (finals messageID card).flatten =
      ((List.range card.history.length).map fun i =>
        if card.historyTurnKeys.getD i [] = messageID ∧ card.historyKinds.getD i .plain = .final then
          card.history.getD i [] else []).flatten := by
    rw [finals, flatten_map_filter, entries, mapIdx_eq_map_range _ _ [], map_map]
    simp only [Function.comp_def, isFinal_eq_true, entryAt]
  have hkind : ∀ i, card.historyKinds[i]? = some .final ↔
      card.historyKinds.getD i .plain = .final := by
    intro i
    rw [getD_eq_getElem?_getD]
    cases card.historyKinds[i]? <;> simp
  rw [hfinals, retainedFinal, mapIdx_eq_map_range _ _ []]
  rcases h.turns with hnone | hlength
  · -- Without turn keys there are no parts.
    simp only [hnone, length_nil, range_zero, map_nil, flatten_nil,
      getD_nil, hmessage.symm, false_and, if_false]
    simp
  · simp only [hlength, hkind]

/-! ## What the operations do to the parts -/

/-- A pending final answer, of a prompt that has an identity. -/
theorem pendingFinal_eq_true : pendingFinal card messageID ↔
    messageID ≠ [] ∧ finalOperation messageID ∈ card.pendingFinalOperations := by
  simp only [pendingFinal, any_eq_true, and_eq_true, bne_iff_ne, beq_iff_eq]
  constructor
  · rintro ⟨operation, hmem, hset, rfl⟩
    exact ⟨hset, hmem⟩
  rintro ⟨hset, hmem⟩
  exact ⟨_, hmem, hset, rfl⟩

/-- An appended entry is not a part; the parts are the same unless the oldest entry of a full history
is one. -/
theorem finals_appended (h : Aligned card) (hentries : entries next = latest (entries card) ++ [e])
    (he : isFinal messageID e = false) :
    finals messageID next = finals messageID card ↔
      (maxEntries ≤ card.history.length → ∀ oldest, (entries card).head? = some oldest →
        isFinal messageID oldest = false) := by
  have hbound := h.bound
  have hnext : finals messageID next =
      ((latest (entries card)).filter (isFinal messageID)).map Entry.item := by
    rw [finals, hentries, filter_append, filter_cons_of_neg (by simp [he]), filter_nil, append_nil]
  rw [hnext, latest, length_entries, finals]
  rcases Nat.lt_or_ge card.history.length maxEntries with hroom | hfull
  · rw [Nat.sub_eq_zero_of_le (by omega), drop_zero]
    exact iff_of_true rfl fun hfull => absurd hfull (by omega)
  have hone : card.history.length - (maxEntries - 1) = 1 := by
    have hpos : maxEntries = 512 := rfl
    omega
  rw [hone]
  cases hlist : entries card with
  | nil => simp
  | cons oldest rest =>
    simp only [drop_succ_cons, drop_zero, head?_cons, some.injEq, forall_eq', hfull, forall_const]
    cases hoff : isFinal messageID oldest with
    | false =>
      rw [filter_cons_of_neg (by simp [hoff])]
      exact iff_of_true rfl rfl
    | true =>
      rw [filter_cons_of_pos hoff, map_cons]
      refine iff_of_false (fun heq => ?_) (by simp)
      have hlength := congrArg List.length heq
      simp at hlength

/-- Making room spares the parts of a pending answer. -/
theorem Room.finals {wanted : Nat} (h : Room card wanted next)
    (hpending : pendingFinal card messageID) : finals messageID next = finals messageID card := by
  obtain ⟨indices, hback, hentries, hremoved⟩ := h.removed
  rw [CardHistory.finals, CardHistory.finals, hentries, filter_removeEach hback fun i hi e he => ?_]
  refine isFinal_eq_false.mpr fun ⟨hturn, hkind⟩ => hremoved i hi e he ⟨hkind, ?_⟩
  rw [hturn]
  exact hpending

/-- Putting in something else leaves the parts. -/
theorem finals_insertEntry_ne (h : Aligned card) (hi : index ≤ card.history.length)
    (hother : ¬(promptID = messageID ∧ kind = .final)) :
    finals messageID (insertEntry card index promptID item kind) = finals messageID card := by
  rw [finals, entries_insertEntry h hi, filter_insertAt_neg (isFinal_eq_false.mpr hother), finals]

/-- A part is put in after those that are there. -/
theorem finals_insertEntry_self (h : Aligned card) (hi : index ≤ card.history.length)
    (hlast : ∀ j, index ≤ j → card.historyTurnKeys[j]? ≠ some messageID)
    (hmessage : messageID ≠ []) :
    finals messageID (insertEntry card index messageID item .final) =
      finals messageID card ++ [item] := by
  have hafter : ((entries card).drop index).filter (isFinal messageID) = [] := by
    rw [filter_eq_nil_iff]
    intro e he
    obtain ⟨j, hj⟩ := mem_iff_getElem?.mp he
    rw [getElem?_drop, getElem?_entries, map_eq_some_iff] at hj
    obtain ⟨text, -, rfl⟩ := hj
    rw [isFinal_eq_true]
    rintro ⟨hturn, -⟩
    refine absurd ?_ (hlast (index + j) (by omega))
    have hgetD : card.historyTurnKeys[index + j]?.getD [] = messageID := by
      exact hturn
    cases hat : card.historyTurnKeys[index + j]? with
    | none => simp [hat, hmessage.symm] at hgetD
    | some turn => simpa [hat] using hgetD
  have hself : isFinal messageID ⟨item, [], messageID, .final⟩ := by simp [isFinal]
  have hbefore : (entries card).filter (isFinal messageID) =
      ((entries card).take index).filter (isFinal messageID) := by
    conv_lhs => rw [← take_append_drop index (entries card), filter_append, hafter, append_nil]
  rw [finals, finals, entries_insertEntry h hi, insertAt, filter_append,
    filter_cons_of_pos hself, hafter, hbefore, map_append]
  rfl

theorem entries_setKey (h : Aligned card) {key : GoString} (he : (entries card)[index]? = some e) :
    entries { card with
      historyKeys := (madeColumn card.historyKeys card.history.length []).set index key } =
        (entries card).set index { e with key } := by
  have hlt : index < card.history.length := by
    have hlt := (List.getElem?_eq_some_iff.mp he).1
    rwa [length_entries] at hlt
  have hkeys := length_madeColumn [] h.keys
  apply ext_getElem?
  intro j
  rw [getElem?_entries, getElem?_set, getElem?_entries, length_entries]
  have hkey : ((madeColumn card.historyKeys card.history.length []).set index key).getD j [] =
      if index = j then key else card.historyKeys.getD j [] := by
    rw [getD_eq_getElem?_getD, getElem?_set, hkeys, if_pos hlt]
    split
    · rfl
    · rw [← getD_eq_getElem?_getD, getD_madeColumn]
  split
  · rename_i hj
    obtain rfl := hj
    rw [getElem?_entries, map_eq_some_iff] at he
    obtain ⟨text, htext, rfl⟩ := he
    simp only [htext, map_some, entryAt, hkey, if_pos]
  rename_i hj
  congr 1
  funext text
  simp only [entryAt, hkey, if_neg hj]

theorem map_filter_set {p : α → Bool} {f : α → β} {l : List α} {i : Nat} {x y : α}
    (hx : l[i]? = some x) (hp : p y = p x) (hf : p x → f y = f x) :
    ((l.set i y).filter p).map f = (l.filter p).map f := by
  induction l generalizing i with
  | nil => rfl
  | cons a l ih =>
    cases i with
    | zero =>
      obtain rfl : a = x := by simpa using hx
      cases hpa : p a with
      | true =>
        rw [set_cons_zero, filter_cons_of_pos (hp.trans hpa), filter_cons_of_pos hpa,
          map_cons, map_cons, hf hpa]
      | false =>
        rw [set_cons_zero, filter_cons_of_neg (by simp [hp, hpa]),
          filter_cons_of_neg (by simp [hpa])]
    | succ i =>
      have hrest := ih (i := i) (by simpa using hx)
      rw [set_cons_succ, filter_cons, filter_cons]
      split
      · rw [map_cons, map_cons, hrest]
      · exact hrest

/-! ## What each operation returns -/

/-- What putting in the parts of an answer does. -/
structure Restored (card : Card) (messageID : GoString) (parts : List GoString) (next : Card) :
    Prop where
  aligned : Aligned next
  pending : next.pendingFinalOperations = card.pendingFinalOperations
  self : finals messageID next = finals messageID card ++ parts
  other : ∀ other, other ≠ messageID → finals other next = finals other card
  entry : ∀ e ∈ entries next, e ∈ entries card ∨ e.key = [] ∧ e.turn = messageID ∧ e.item ∈ parts

theorem foldlM_restored {parts : List GoString} (h : Aligned card) (hmessage : messageID ≠ [])
    (hfits : card.history.length + parts.length ≤ maxEntries)
    (hok : parts.foldlM (fun card part => insertAfterPrompt card messageID part .final) card =
      .ok next) : Restored card messageID parts next := by
  induction parts generalizing card with
  | nil =>
    obtain rfl := ok.inj hok
    exact ⟨h, rfl, (append_nil _).symm, fun _ _ => rfl, fun e he => .inl he⟩
  | cons part rest ih =>
    obtain ⟨middle, hfirst, hok⟩ := bind_eq_ok.mp hok
    obtain ⟨index, hindex, rfl, hlast⟩ := insertAfterPrompt_eq_ok h hfirst
    simp only [length_cons] at hfits
    have hrest := ih (insertEntry_aligned h (by omega) index)
      (by rw [insertEntry_length]; omega) hok
    refine ⟨hrest.aligned, hrest.pending, ?_, fun other hother => ?_, fun e he => ?_⟩
    · rw [hrest.self, finals_insertEntry_self h hindex hlast hmessage, append_assoc]
      rfl
    · rw [hrest.other other hother]
      exact finals_insertEntry_ne h hindex fun hsame => hother hsame.1.symm
    rcases hrest.entry e he with he | ⟨hkey, hturn, hitem⟩
    · rw [entries_insertEntry h hindex, insertAt, mem_append, mem_cons] at he
      rcases he with he | rfl | he
      · exact .inl (mem_of_mem_take he)
      · exact .inr ⟨rfl, rfl, mem_cons_self⟩
      · exact .inl (mem_of_mem_drop he)
    · exact .inr ⟨hkey, hturn, mem_cons_of_mem part hitem⟩

/-- What `RestoreFinal` does with an answer that is not in the history: it makes room, puts in the
parts and lists the operation. -/
theorem recordFinal_eq_ok (hmessage : messageID ≠ [])
    (hok : recordFinal card messageID final = .ok next) :
    ∃ roomed restored : Card, Room card (finalParts final.length final).length roomed ∧
      Restored roomed messageID (finalParts final.length final) restored ∧
      entries next = entries restored ∧ Aligned next ∧
      finalOperation messageID ∈ next.pendingFinalOperations ∧
      ∀ operation ∈ card.pendingFinalOperations, operation ∈ next.pendingFinalOperations := by
  replace hok := of_check hok
  obtain ⟨roomed, hroomed, hok⟩ := bind_eq_ok.mp hok
  obtain ⟨restored, hrestored, hok⟩ := bind_eq_ok.mp hok
  obtain rfl := ok.inj hok
  have hroom := ensureRoomAfterPrompt_room (mapError_eq_ok.mp hroomed)
  have hparts := foldlM_restored hroom.aligned hmessage hroom.fits (mapError_eq_ok.mp hrestored)
  have hpending : restored.pendingFinalOperations = card.pendingFinalOperations :=
    hparts.pending.trans hroom.pending
  have haligned := hparts.aligned
  refine ⟨roomed, restored, hroom, hparts, rfl,
    ⟨haligned.bound, haligned.keys, haligned.turns, haligned.kinds⟩, ?_, fun operation hmem => ?_⟩
  · split
    · rename_i halready
      rw [hpending]
      exact contains_iff_mem.mp halready
    · exact mem_append_right _ mem_cons_self
  rw [Card.pendingFinalsAfter, if_pos rfl, hpending]
  split
  · exact hmem
  · exact mem_append_left _ hmem

/-- What `InsertRuntimeEvent` does with a new event: it makes room and puts in an entry with the key
of the event. -/
theorem insertRuntimeEvent_eq_ok {digest : GoString → GoString} {eventID : GoString}
    (hok : insertRuntimeEvent digest card promptID eventID item kind = .ok next) :
    next = card ∨ ∃ (roomed : Card) (index : Nat), Room card 1 roomed ∧ Aligned next ∧
      next.pendingFinalOperations = card.pendingFinalOperations ∧ kind ≠ .final ∧
      entries next = insertAt (entries roomed) index
        ⟨item, eventKey digest promptID eventID, promptID, kind⟩ := by
  obtain ⟨hevent, hok⟩ := check_eq_ok.mp hok
  simp only [refuse_eq_ok, or_eq_false_iff, not_eq_false', isEmpty_eq_false_iff] at hevent
  have hprompt : promptID ≠ [] := hevent.1.1.1.1.1
  have hkind : kind ≠ .final := by
    rintro rfl
    cases hevent.2
  split at hok
  · replace hok := of_check hok
    exact .inl (ok.inj hok).symm
  obtain ⟨inserted, hinserted, hok⟩ := bind_eq_ok.mp hok
  obtain ⟨roomed, hroomed, hinserted⟩ := bind_eq_ok.mp hinserted
  obtain rfl := ok.inj hok
  have hroom := ensureRoomAfterPrompt_room hroomed
  have hfits := hroom.fits
  obtain ⟨index, hindex, rfl, hlast⟩ := insertAfterPrompt_eq_ok hroom.aligned hinserted
  have haligned : Aligned (insertEntry roomed index promptID item kind) :=
    insertEntry_aligned hroom.aligned (by omega) index
  have hentries : entries (insertEntry roomed index promptID item kind) =
      insertAt (entries roomed) index ⟨item, [], promptID, kind⟩ :=
    entries_insertEntry hroom.aligned hindex
  have hturns : (insertEntry roomed index promptID item kind).historyTurnKeys =
      insertAt (madeColumn roomed.historyTurnKeys roomed.history.length []) index promptID :=
    if_pos hprompt
  have hmade := length_madeColumn [] hroom.aligned.turns
  -- The new entry is the last one with the turn key of the prompt.
  have hself : (insertEntry roomed index promptID item kind).historyTurnKeys[index]? =
      some promptID := by
    rw [hturns, getElem?_insertAt _ (by omega), if_neg (by omega), if_pos rfl]
  have hafter : ∀ j, index < j →
      (insertEntry roomed index promptID item kind).historyTurnKeys[j]? ≠ some promptID := by
    intro j hj
    rw [hturns, getElem?_insertAt _ (by omega), if_neg (by omega), if_neg (by omega)]
    intro hat
    refine hlast (j - 1) (by omega) ?_
    unfold madeColumn at hat
    split at hat
    · rw [getElem?_replicate] at hat
      split at hat
      · exact absurd (some.inj hat).symm hprompt
      · cases hat
    · exact hat
  have hindex' : lastIndex promptID
      (insertEntry roomed index promptID item kind).historyTurnKeys = some index := by
    cases hfound : lastIndex promptID
        (insertEntry roomed index promptID item kind).historyTurnKeys with
    | none => exact absurd (mem_of_getElem? hself) (lastIndex_eq_none.mp hfound)
    | some i =>
      obtain ⟨hat, hlater⟩ := lastIndex_eq_some hfound
      rcases Nat.lt_trichotomy i index with hi | rfl | hi
      · exact absurd hself (hlater index hi)
      · rfl
      · exact absurd hat (hafter i hi)
  have hat : (entries (insertEntry roomed index promptID item kind))[index]? =
      some ⟨item, [], promptID, kind⟩ := by
    rw [hentries, getElem?_insertAt _ (by rw [length_entries]; omega), if_neg (by omega),
      if_pos rfl]
  refine .inr ⟨roomed, index, hroom, ?_, ?_, hkind, ?_⟩
  · rw [keyLastEvent, hindex']
    refine ⟨haligned.bound, .inr ?_, haligned.turns, haligned.kinds⟩
    rw [length_set]
    exact length_madeColumn [] haligned.keys
  · rw [keyLastEvent, hindex']
    exact hroom.pending
  rw [keyLastEvent, hindex', entries_setKey haligned hat, hentries]
  have hlength : ((entries roomed).take index).length = index := by
    rw [length_take, length_entries]
    omega
  rw [insertAt, insertAt, set_append_right _ _ (by omega), hlength, Nat.sub_self, set_cons_zero]

section

variable (h : Aligned card)
include h

/-- What `SetCardPrompt` does with a new prompt: it appends an entry with the key of the prompt. -/
theorem entries_appendPrompt (messageID item : GoString) :
    Aligned (appendPrompt card messageID item) ∧ entries (appendPrompt card messageID item) =
      latest (entries card) ++ [⟨item, messageID, [], .plain⟩] := by
  have haligned : Aligned (append card item .plain) := append_aligned h
  have hentries := entries_append h item .plain
  rw [ite_self] at hentries
  have hmade := length_madeColumn [] haligned.keys
  have hlength : (append card item .plain).history.length = (latest (entries card)).length + 1 := by
    rw [← length_entries, hentries, length_append, length_singleton]
  have hat : (entries (append card item .plain))[(madeColumn (append card item .plain).historyKeys
      (append card item .plain).history.length []).length - 1]? = some ⟨item, [], [], .plain⟩ := by
    rw [hmade, hlength, Nat.add_sub_cancel, hentries, getElem?_concat_length]
  refine ⟨⟨haligned.bound, .inr ?_, haligned.turns, haligned.kinds⟩, ?_⟩
  · simp only [appendPrompt, length_set, hmade]
  rw [appendPrompt, entries_setKey haligned hat, hentries, hmade, hlength, Nat.add_sub_cancel,
    set_append_right _ _ (Nat.le_refl _), Nat.sub_self, set_cons_zero]

/-- What `SetCardPrompt` does with a prompt that is there: it gives the entry a new text. -/
theorem setPrompt_found (hindex : card.historyKeys.findIdx? (· == messageID) = some index)
    (item : GoString) :
    ∃ e, (entries card)[index]? = some e ∧ e.key = messageID ∧
      Aligned { card with history := card.history.set index item } ∧
      entries { card with history := card.history.set index item } =
        (entries card).set index { e with item } := by
  obtain ⟨hlt, hkey, -⟩ := findIdx?_eq_some_iff_getElem.mp hindex
  have hlength : card.historyKeys.length = card.history.length := by
    refine h.keys.resolve_left fun hnone => ?_
    rw [hnone] at hlt
    cases hlt
  have hrow : index < card.history.length := by omega
  have hlength' : (card.history.set index item).length = card.history.length := length_set
  refine ⟨entryAt card index (card.history.get ⟨index, hrow⟩), ?_, ?_, ?_, ?_⟩
  · rw [getElem?_entries, getElem?_eq_getElem hrow]
    rfl
  · simp only [entryAt, getD_eq_getElem?_getD, getElem?_eq_getElem hlt, getD_some]
    exact beq_iff_eq.mp hkey
  · exact ⟨by rw [hlength']; exact h.bound, by rw [hlength']; exact h.keys,
      by rw [hlength']; exact h.turns, by rw [hlength']; exact h.kinds⟩
  apply ext_getElem?
  intro j
  rw [getElem?_entries, getElem?_set, getElem?_set, length_entries, getElem?_entries]
  split
  · rename_i hj
    obtain rfl := hj
    rfl
  · rfl

end

end Bria.CardHistory
