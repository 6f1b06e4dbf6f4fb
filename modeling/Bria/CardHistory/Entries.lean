import Bria.CardHistory.Operations

/-!
# Histories as lists of entries

A card keeps its history in four slices. Seen together they are a list of entries, each with its
text, key, turn key and kind, and every operation on the slices is one on that list: `Append` drops
from the front and adds at the end, an insertion puts one entry in, and making room removes some that
are not part of a pending final answer. This holds of cards whose metadata is aligned, as `Validate`
wants it, and the operations keep them so.
-/

namespace Bria.CardHistory

open Go TelegramState List

/-- An entry of a history. -/
structure Entry where
  (item key turn : GoString)
  kind : HistoryKind

/-- The entry with a text at an index. -/
def entryAt (card : Card) (index : Nat) (item : GoString) : Entry where
  item
  key := card.historyKeys.getD index []
  turn := card.historyTurnKeys.getD index []
  kind := card.historyKinds.getD index .plain

/-- The history of a card. -/
def entries (card : Card) : List Entry := card.history.mapIdx (entryAt card)

/-- A card with at most as many entries as there may be, and metadata for each or for none. -/
structure Aligned (card : Card) : Prop where
  bound : card.history.length ≤ maxEntries
  keys : IsColumn card.historyKeys card.history.length
  turns : IsColumn card.historyTurnKeys card.history.length
  kinds : IsColumn card.historyKinds card.history.length

variable {card next : Card} {promptID item : GoString} {kind : HistoryKind}

/-- What stands at an index. -/
theorem getElem?_entries (card : Card) (i : Nat) :
    (entries card)[i]? = card.history[i]?.map (entryAt card i) := getElem?_mapIdx

theorem length_entries (card : Card) : (entries card).length = card.history.length := length_mapIdx

theorem isColumn_of_misaligned {α : Type} {column : List α}
    (h : misaligned column card.history = false) : IsColumn column card.history.length := by
  simp only [misaligned, and_eq_false_iff, not_eq_false', List.isEmpty_iff,
    bne_eq_false_iff_eq] at h
  exact h

/-- `Validate` accepts aligned cards without empty texts only. -/
theorem aligned_of_validateCard {id : GoString} (h : validateCard ⟨id, card⟩ = .ok ()) :
    Aligned card ∧ ∀ item ∈ card.history, item ≠ [] := by
  iterate 5 replace h := of_check h
  obtain ⟨hlength, h⟩ := check_eq_ok.mp h
  replace h := of_check h
  replace h := of_check h
  obtain ⟨hkeys, h⟩ := check_eq_ok.mp h
  obtain ⟨hkinds, h⟩ := check_eq_ok.mp h
  obtain ⟨hturns, h⟩ := check_eq_ok.mp h
  replace h := of_check h
  obtain ⟨hitems, -⟩ := check_eq_ok.mp h
  simp only [refuse_eq_ok, decide_eq_false_iff_not, Nat.not_lt] at hlength hkeys hkinds hturns
  refine ⟨⟨hlength, isColumn_of_misaligned hkeys, isColumn_of_misaligned hturns,
    isColumn_of_misaligned hkinds⟩, fun item hitem => ?_⟩
  have hchecked := forM_eq_ok.mp hitems item hitem
  simp only [refuse_eq_ok, or_eq_false_iff, isEmpty_eq_false_iff] at hchecked
  exact hchecked.1.1

/-! ## Columns under the operations -/

section Columns

variable {α : Type} {column : List α} {n : Nat} {zero x : α}

/-- A column after `Append`. -/
theorem getD_append (h : IsColumn column n) (i : Nat) (hi : i ≤ n) :
    (onColumn (· ++ [x]) column).getD i zero =
      if i = n then (if column = [] then zero else x) else column.getD i zero := by
  unfold onColumn
  rcases h with rfl | hlength
  · simp
  cases column with
  | nil => simp
  | cons a rest =>
    simp only [isEmpty_cons, false_eq_true, if_false, reduceCtorEq]
    rw [getD_eq_getElem?_getD, getElem?_append, hlength, getD_eq_getElem?_getD]
    split
    · rw [if_neg (by omega)]
    have hin : i = n := by omega
    rw [if_pos hin, hin, Nat.sub_self]
    rfl

/-- What stands at an index after the oldest entries were dropped. -/
theorem getElem?_latest (l : List α) (i : Nat) :
    (latest l)[i]? = l[l.length - (maxEntries - 1) + i]? := by
  rw [latest, getElem?_drop]

theorem length_latest (l : List α) :
    (latest l).length = l.length - (l.length - (maxEntries - 1)) := by
  rw [latest, length_drop]

theorem getD_latest (h : IsColumn column n) (i : Nat) :
    (onColumn latest column).getD i zero = column.getD (n - (maxEntries - 1) + i) zero := by
  unfold onColumn
  rcases h with rfl | hlength
  · simp
  cases column with
  | nil => simp
  | cons a rest =>
    simp only [isEmpty_cons, false_eq_true, if_false]
    rw [getD_eq_getElem?_getD, getElem?_latest, hlength, getD_eq_getElem?_getD]

/-- A column after an insertion. -/
theorem getD_insertAt {i : Nat} (h : column.length = n) (hi : i ≤ n) (j : Nat) :
    (insertAt column i x).getD j zero =
      if j < i then column.getD j zero else if j = i then x else column.getD (j - 1) zero := by
  simp only [getD_eq_getElem?_getD, getElem?_insertAt x (h ▸ hi : i ≤ column.length)]
  split
  · rfl
  split
  · rfl
  · rfl

/-- A column that may be missing after the insertion of a zero value. -/
theorem getD_onColumn_insertAt {i : Nat} (h : IsColumn column n) (hi : i ≤ n) (j : Nat) :
    (onColumn (fun l => insertAt l i zero) column).getD j zero =
      if j < i then column.getD j zero else if j = i then zero else column.getD (j - 1) zero := by
  unfold onColumn
  rcases h with rfl | hlength
  · simp
  cases column with
  | nil => simp
  | cons a rest => exact getD_insertAt hlength hi j

/-- A column after a removal. -/
theorem getD_eraseIdx (column : List α) (i j : Nat) :
    (column.eraseIdx i).getD j zero = column.getD (if j < i then j else j + 1) zero := by
  rw [getD_eq_getElem?_getD, getElem?_eraseIdx, getD_eq_getElem?_getD]
  split
  · rfl
  · rfl

/-- A column stays one under an operation that changes the number of rows. -/
theorem isColumn_onColumn {f : List α → List α} {n' : Nat} (h : IsColumn column n)
    (hf : column.length = n → (f column).length = n') : IsColumn (onColumn f column) n' := by
  unfold onColumn
  split
  · rename_i hempty
    exact .inl (List.isEmpty_iff.mp hempty)
  rename_i hset
  refine .inr (hf (h.resolve_left fun hempty => hset ?_))
  rw [hempty]
  rfl

/-- A column stays one when rows are removed from the back. -/
theorem isColumn_removeEach {indices : List Nat} (h : IsColumn column n)
    (hback : indices.Pairwise (· > ·)) (hlt : ∀ i ∈ indices, i < n) :
    IsColumn (removeEach indices column) (n - indices.length) := by
  rcases h with rfl | hlength
  · refine .inl ?_
    induction indices with
    | nil => rfl
    | cons i rest ih => exact ih (pairwise_cons.mp hback).2 fun j hj => hlt j (mem_cons_of_mem i hj)
  have hremoved := length_removeEach hback (l := column) (by rwa [hlength])
  exact .inr (by omega)

end Columns

/-! ## `Append` -/

/-- Two places of two cards have the same entry when their columns have. -/
theorem getElem?_entries_congr {i j : Nat} (hitem : next.history[i]? = card.history[j]?)
    (hkey : next.historyKeys.getD i [] = card.historyKeys.getD j [])
    (hturn : next.historyTurnKeys.getD i [] = card.historyTurnKeys.getD j [])
    (hkind : next.historyKinds.getD i .plain = card.historyKinds.getD j .plain) :
    (entries next)[i]? = (entries card)[j]? := by
  have hentry : entryAt next i = entryAt card j := by
    funext item
    simp only [entryAt, hkey, hturn, hkind]
  rw [getElem?_entries, getElem?_entries, hitem, hentry]

/-- The texts that are left. -/
theorem trimmed_history (card : Card) : (trimmed card).history = latest card.history := by
  simp only [trimmed]

section

variable (h : Aligned card)
include h

theorem entries_trimmed : entries (trimmed card) = latest (entries card) := by
  refine ext_getElem? fun i => ?_
  rw [getElem?_latest, length_entries]
  refine getElem?_entries_congr ?_ ?_ ?_ ?_ <;> simp only [trimmed]
  · exact getElem?_latest card.history i
  · exact getD_latest h.keys i
  · exact getD_latest h.turns i
  · exact getD_latest h.kinds i

/-- Dropping the oldest entries leaves a card aligned, with room for one. -/
theorem trimmed_aligned : Aligned (trimmed card) ∧ (trimmed card).history.length < maxEntries := by
  have hlength : (trimmed card).history.length =
      card.history.length - (card.history.length - (maxEntries - 1)) := by
    rw [trimmed_history, length_latest]
  have hcolumn : ∀ {β : Type} {column : List β}, IsColumn column card.history.length →
      IsColumn (onColumn latest column) (trimmed card).history.length := by
    intro β column hcolumn
    refine isColumn_onColumn hcolumn fun hn => ?_
    rw [hlength, length_latest, hn]
  have hroom : (trimmed card).history.length < maxEntries := by
    have hpos : maxEntries = 512 := rfl
    omega
  exact ⟨⟨Nat.le_of_lt hroom, hcolumn h.keys, hcolumn h.turns, hcolumn h.kinds⟩, hroom⟩

/-- The kinds after an entry was added. The kind of the first entry of a history is lost. -/
theorem kinds_appendEntry (item : GoString) {i : Nat} (hi : i ≤ card.history.length) :
    (appendEntry card item kind).historyKinds.getD i .plain =
      if i = card.history.length then (if card.history = [] then .plain else kind)
      else card.historyKinds.getD i .plain := by
  by_cases hplain : kind = .plain
  · simp only [appendEntry, hplain, ne_eq, not_true_eq_false, if_false]
    rw [getD_append h.kinds i hi, ite_self, ite_self]
  have hmade := length_madeColumn .plain h.kinds
  have hempty : madeColumn card.historyKinds card.history.length .plain = [] ↔ card.history = [] := by
    rw [← length_eq_zero_iff, hmade, length_eq_zero_iff]
  simp only [appendEntry, ne_eq, hplain, not_false_eq_true, if_true]
  rw [getD_append (.inr hmade) i hi, getD_madeColumn]
  simp only [hempty]

theorem entries_appendEntry : entries (appendEntry card item kind) =
    entries card ++ [⟨item, [], [], if card.history = [] then .plain else kind⟩] := by
  have hcolumn : ∀ {column : List GoString}, IsColumn column card.history.length →
      ∀ i, i ≤ card.history.length → (onColumn (· ++ [[]]) column).getD i [] =
        if i = card.history.length then [] else column.getD i [] :=
    fun hcolumn i hi => (getD_append hcolumn i hi).trans (by rw [ite_self])
  have hkey := hcolumn h.keys
  have hturn := hcolumn h.turns
  have hhistory : (appendEntry card item kind).history = card.history ++ [item] := rfl
  refine ext_getElem? fun i => ?_
  rw [getElem?_append, length_entries]
  rcases Nat.lt_trichotomy i card.history.length with hi | hi | hi
  · rw [if_pos hi]
    refine getElem?_entries_congr (by rw [hhistory, getElem?_append_left hi]) ?_ ?_ ?_
    · exact (hkey i (by omega)).trans (if_neg (by omega))
    · exact (hturn i (by omega)).trans (if_neg (by omega))
    · exact (kinds_appendEntry h item (by omega)).trans (if_neg (by omega))
  · rw [if_neg (by omega), getElem?_entries, hhistory, getElem?_append_right (by omega), hi,
      Nat.sub_self]
    have hend : entryAt (appendEntry card item kind) card.history.length item =
        ⟨item, [], [], if card.history = [] then .plain else kind⟩ :=
      Entry.mk.injEq .. ▸ ⟨rfl, (hkey _ (Nat.le_refl _)).trans (if_pos rfl),
        (hturn _ (Nat.le_refl _)).trans (if_pos rfl),
        (kinds_appendEntry h item (Nat.le_refl _)).trans (if_pos rfl)⟩
    exact congrArg some hend
  rw [if_neg (by omega), getElem?_entries, hhistory, getElem?_eq_none (by simp; omega)]
  exact (getElem?_eq_none (by simp; omega)).symm

theorem appendEntry_aligned (hroom : card.history.length < maxEntries) :
    Aligned (appendEntry card item kind) := by
  have hlength : (appendEntry card item kind).history.length = card.history.length + 1 := by
    simp [appendEntry]
  have hcolumn : ∀ {β : Type} {column : List β} (x : β), IsColumn column card.history.length →
      IsColumn (onColumn (· ++ [x]) column) (appendEntry card item kind).history.length := by
    intro β column x hcolumn
    refine isColumn_onColumn hcolumn fun hn => ?_
    rw [hlength, length_append, hn, length_singleton]
  refine ⟨by omega, hcolumn [] h.keys, hcolumn [] h.turns, hcolumn kind ?_⟩
  split
  · exact .inr (length_madeColumn .plain h.kinds)
  · exact h.kinds

/-- What `Append` makes of a history: it drops the oldest entry of a full one. -/
theorem entries_append (item : GoString) (kind : HistoryKind) :
    entries (append card item kind) =
      latest (entries card) ++ [⟨item, [], [], if card.history = [] then .plain else kind⟩] := by
  unfold append
  split
  · rename_i hfull
    have hset : (trimmed card).history = [] ↔ card.history = [] := by
      have hpos : maxEntries = 512 := rfl
      rw [← length_eq_zero_iff, trimmed_history, length_latest, ← length_eq_zero_iff]
      omega
    rw [← entries_trimmed h, entries_appendEntry (trimmed_aligned h).1]
    simp only [hset]
  rename_i hroom
  have hlatest : latest (entries card) = entries card := by
    rw [latest, length_entries, Nat.sub_eq_zero_of_le (by omega), drop_zero]
  rw [hlatest]
  exact entries_appendEntry h

theorem append_aligned : Aligned (append card item kind) := by
  unfold append
  split
  · exact appendEntry_aligned (trimmed_aligned h).1 (trimmed_aligned h).2
  · exact appendEntry_aligned h (by omega)

end

/-- A run of `Append`. -/
def appendAll (card : Card) (calls : List (GoString × HistoryKind)) : Card :=
  calls.foldl (fun card call => append card call.1 call.2) card

theorem appendAll_aligned (h : Aligned card) (calls : List (GoString × HistoryKind)) :
    Aligned (appendAll card calls) := by
  induction calls generalizing card with
  | nil => exact h
  | cons call rest ih => exact ih (append_aligned h)

/-- A run of `Append` on a valid card keeps its columns aligned, and each call labels its entry and
keeps those that are left, exactly if the first call on an empty history has no kind. -/
theorem append_labels_iff {id : GoString} (hcard : validateCard ⟨id, card⟩ = .ok ())
    (calls : List (GoString × HistoryKind)) :
    (∀ front back, calls = front ++ back → Aligned (appendAll card front)) ∧
    ((∀ front item kind back, calls = front ++ (item, kind) :: back →
      entries (append (appendAll card front) item kind) =
        latest (entries (appendAll card front)) ++ [⟨item, [], [], kind⟩]) ↔
      card.history ≠ [] ∨ ∀ call ∈ calls.head?, call.2 = .plain) := by
  have h := (aligned_of_validateCard hcard).1
  refine ⟨fun front _ _ => appendAll_aligned h front, fun hkept => ?_, ?_⟩
  · refine or_iff_not_imp_left.mpr fun hempty call hcall => ?_
    cases calls with
    | nil => cases hcall
    | cons first rest =>
      obtain rfl := some.inj hcall
      have hfirst := hkept [] first.1 first.2 rest rfl
      rw [appendAll, foldl_nil, entries_append h, if_pos (not_not.mp hempty)] at hfirst
      exact (congrArg Entry.kind (cons.inj (append_cancel_left hfirst)).1).symm
  rintro hlabel front item kind back rfl
  rw [entries_append (appendAll_aligned h front)]
  rcases eq_nil_or_concat front with rfl | ⟨before, last, rfl⟩
  · rcases hlabel with hset | hplain
    · rw [appendAll, foldl_nil, if_neg hset]
    obtain rfl : kind = .plain := hplain _ rfl
    rw [ite_self]
  -- A call before left an entry.
  have hlast : appendAll card (before.concat last) =
      append (appendAll card before) last.1 last.2 := by
    rw [appendAll, concat_eq_append, foldl_concat, appendAll]
  have hset : (appendAll card (before.concat last)).history ≠ [] := by
    rw [← length_pos_iff, ← length_entries, hlast, entries_append (appendAll_aligned h before)]
    exact length_append ▸ Nat.succ_pos _
  rw [if_neg hset]

/-- The kind of a question that is appended after a text. -/
theorem question_labelled :
    entries (appendAll (newCard (ofText "s")) [(ofText "hi", .plain), (ofText "q", .question)]) =
      [⟨ofText "hi", [], [], .plain⟩, ⟨ofText "q", [], [], .question⟩] := by
  have hcard : validateCard ⟨ofText "s", newCard (ofText "s")⟩ = .ok () := rfl
  have hkept := (append_labels_iff hcard
    [(ofText "hi", .plain), (ofText "q", .question)]).2.mpr (.inr fun _ h => some.inj h ▸ rfl)
  exact hkept [(ofText "hi", .plain)] _ _ [] rfl

/-- A question that is appended to an empty history has no kind. -/
theorem first_question_unlabelled :
    validateCard ⟨ofText "s", newCard (ofText "s")⟩ = .ok () ∧
      entries (append (newCard (ofText "s")) (ofText "q") .question) =
        [⟨ofText "q", [], [], .plain⟩] := ⟨rfl, rfl⟩

/-! ## Insertion -/

theorem insertEntry_length (card : Card) (index : Nat) (promptID item : GoString)
    (kind : HistoryKind) :
    (insertEntry card index promptID item kind).history.length = card.history.length + 1 :=
  length_insertAt card.history index item

theorem entries_insertEntry (h : Aligned card) {index : Nat} (hi : index ≤ card.history.length) :
    entries (insertEntry card index promptID item kind) =
      insertAt (entries card) index ⟨item, [], promptID, kind⟩ := by
  have hkey : ∀ j, (insertEntry card index promptID item kind).historyKeys.getD j [] =
      if j < index then card.historyKeys.getD j [] else if j = index then []
      else card.historyKeys.getD (j - 1) [] :=
    getD_onColumn_insertAt h.keys hi
  have hturn : ∀ j, (insertEntry card index promptID item kind).historyTurnKeys.getD j [] =
      if j < index then card.historyTurnKeys.getD j [] else if j = index then promptID
      else card.historyTurnKeys.getD (j - 1) [] := by
    intro j
    by_cases hnone : promptID = []
    · simp only [insertEntry, hnone, ne_eq, not_true_eq_false, if_false]
      exact getD_onColumn_insertAt h.turns hi j
    simp only [insertEntry, ne_eq, hnone, not_false_eq_true, if_true]
    rw [getD_insertAt (length_madeColumn [] h.turns) hi, getD_madeColumn, getD_madeColumn]
  have hkind : ∀ j, (insertEntry card index promptID item kind).historyKinds.getD j .plain =
      if j < index then card.historyKinds.getD j .plain else if j = index then kind
      else card.historyKinds.getD (j - 1) .plain := by
    intro j
    by_cases hplain : kind = .plain
    · simp only [insertEntry, hplain, ne_eq, not_true_eq_false, if_false]
      exact getD_onColumn_insertAt h.kinds hi j
    simp only [insertEntry, ne_eq, hplain, not_false_eq_true, if_true]
    rw [getD_insertAt (length_madeColumn .plain h.kinds) hi, getD_madeColumn, getD_madeColumn]
  have hhistory := getElem?_insertAt item hi
  refine ext_getElem? fun j => ?_
  rw [getElem?_insertAt _ (by rw [length_entries]; exact hi)]
  rcases Nat.lt_trichotomy j index with hj | hj | hj
  · rw [if_pos hj]
    exact getElem?_entries_congr ((hhistory j).trans (if_pos hj)) ((hkey j).trans (if_pos hj))
      ((hturn j).trans (if_pos hj)) ((hkind j).trans (if_pos hj))
  · have hitem : (insertEntry card index promptID item kind).history[j]? = some item := by
      rw [insertEntry, hhistory, if_neg (by omega), if_pos hj]
    rw [if_neg (by omega), if_pos hj, getElem?_entries, hitem]
    simp only [hj, Nat.lt_irrefl, if_false, if_true, map_some, entryAt, hkey, hturn, hkind]
  have hlt : ¬ j < index := by omega
  have hne : j ≠ index := by omega
  rw [if_neg hlt, if_neg hne]
  refine getElem?_entries_congr ((hhistory j).trans ?_) ((hkey j).trans ?_) ((hturn j).trans ?_)
    ((hkind j).trans ?_)
  all_goals rw [if_neg hlt, if_neg hne]

theorem insertEntry_aligned (h : Aligned card) (hroom : card.history.length < maxEntries)
    (index : Nat) : Aligned (insertEntry card index promptID item kind) := by
  have hlength := insertEntry_length card index promptID item kind
  have hinsert : ∀ {β : Type} {column : List β} (x : β), column.length = card.history.length →
      (insertAt column index x).length =
        (insertEntry card index promptID item kind).history.length := by
    intro β column x hcolumn
    rw [hlength, length_insertAt, hcolumn]
  refine ⟨by omega, ?_, ?_, ?_⟩
  · exact isColumn_onColumn (f := fun keys => insertAt keys index []) h.keys (hinsert [])
  · simp only [insertEntry]
    split
    · exact .inr (hinsert promptID (length_madeColumn [] h.turns))
    exact isColumn_onColumn (f := fun turns => insertAt turns index promptID) h.turns
      (hinsert promptID)
  simp only [insertEntry]
  split
  · exact .inr (hinsert kind (length_madeColumn .plain h.kinds))
  · exact isColumn_onColumn (f := fun kinds => insertAt kinds index kind) h.kinds (hinsert kind)

/-- `InsertAfterPrompt` puts the entry in after the last one that its prompt has. -/
theorem insertAfterPrompt_eq_ok (h : Aligned card)
    (hok : insertAfterPrompt card promptID item kind = .ok next) :
    ∃ index ≤ card.history.length, next = insertEntry card index promptID item kind ∧
      ∀ j, index ≤ j → card.historyTurnKeys[j]? ≠ some promptID := by
  unfold insertAfterPrompt at hok
  split at hok
  · cases hok
  rename_i anchor hanchor
  obtain rfl := ok.inj hok
  have hcolumn : ∀ {column : List GoString}, IsColumn column card.history.length →
      column[anchor]? = some promptID → anchor + 1 ≤ card.history.length := by
    intro column hcolumn hat
    have hlt := (List.getElem?_eq_some_iff.mp hat).1
    rcases hcolumn with rfl | hlength
    · cases hlt
    · omega
  unfold insertionAnchor at hanchor
  cases hturn : lastIndex promptID card.historyTurnKeys with
  | some i =>
    simp only [hturn, Option.some_or, some.injEq] at hanchor
    obtain rfl := hanchor
    obtain ⟨hat, hafter⟩ := lastIndex_eq_some hturn
    exact ⟨i + 1, hcolumn h.turns hat, rfl, fun j hj => hafter j (by omega)⟩
  | none =>
    simp only [hturn, Option.none_or] at hanchor
    obtain ⟨hat, -⟩ := lastIndex_eq_some hanchor
    refine ⟨anchor + 1, hcolumn h.keys hat, rfl, fun j _ hj => ?_⟩
    exact lastIndex_eq_none.mp hturn (mem_of_getElem? hj)

/-! ## Making room -/

theorem entries_removeEntries (card : Card) (indices : List Nat) :
    entries (removeEntries card indices) = removeEach indices (entries card) := by
  induction indices generalizing card with
  | nil => rfl
  | cons i rest ih =>
    have hone : entries (removeEntries card [i]) = (entries card).eraseIdx i := by
      refine ext_getElem? fun j => ?_
      have hat : ∀ {α : Type} (l : List α),
          (l.eraseIdx i)[j]? = l[if j < i then j else j + 1]? := by
        intro α l
        rw [getElem?_eraseIdx, ← apply_ite (l[·]?)]
      rw [hat]
      exact getElem?_entries_congr (hat _) (getD_eraseIdx _ i j) (getD_eraseIdx _ i j)
        (getD_eraseIdx _ i j)
    calc entries (removeEntries card (i :: rest))
        = entries (removeEntries (removeEntries card [i]) rest) := rfl
      _ = removeEach rest (entries (removeEntries card [i])) := ih _
      _ = removeEach (i :: rest) (entries card) := by rw [hone]; rfl

/-- A candidate is an entry, and each is in one list only. -/
theorem nodup_candidates (card : Card) (promptID : GoString) (anchor : Nat) :
    (candidates card promptID anchor).Nodup := by
  have hamong : ∀ list, ((List.range card.history.length).filter fun index =>
      decide (candidate card promptID anchor index = some list)).Nodup :=
    fun list => nodup_range.filter _
  have hdisjoint : ∀ {list other : Candidate}, list ≠ other → ∀ {i : Nat},
      i ∈ (List.range card.history.length).filter (fun index =>
        decide (candidate card promptID anchor index = some list)) →
      i ∉ (List.range card.history.length).filter fun index =>
        decide (candidate card promptID anchor index = some other) := by
    intro list other hne i hi hother
    simp only [mem_filter, decide_eq_true_eq] at hi hother
    exact hne (mem_unique hi.2 hother.2)
  refine nodup_append'.mpr ⟨nodup_append'.mpr ⟨hamong _, hamong _, ?_⟩, hamong _, ?_⟩
  · exact fun i hi hother => hdisjoint (by decide) hi hother
  intro i hi hother
  rcases mem_append.mp hi with hi | hi <;> exact hdisjoint (by decide) hi hother

/-- Whether `EnsureRoomAfterPrompt` takes an entry for a prompt. -/
def isPrompt (e : Entry) : Prop := e.kind = .prompt ∨ e.key ≠ [] ∧ e.turn = []

/-- What may be removed to make room after the entry at the anchor: neither that entry nor a prompt
from there on, nor the prompt or the answer of a pending final. -/
structure Evictable (card : Card) (promptID : GoString) (anchor i : Nat) (e : Entry) : Prop where
  ne : i ≠ anchor
  prompt : isPrompt e → i < anchor ∧ e.key ≠ promptID ∧ pendingFinal card e.key = false
  final : ¬(e.kind = .final ∧ pendingFinal card e.turn)

variable {anchor i wanted : Nat} {e : Entry}

/-- The anchor has the identity of the prompt. -/
theorem anchorIndex_eq_some (h : anchorIndex card promptID = some anchor) :
    card.historyKeys[anchor]? = some promptID ∨ card.historyTurnKeys[anchor]? = some promptID := by
  rcases Option.or_eq_some_iff.mp h with hkey | ⟨-, hturn⟩
  · obtain ⟨hlt, hkey, -⟩ := findIdx?_eq_some_iff_getElem.mp hkey
    exact .inl (List.getElem?_eq_some_iff.mpr ⟨hlt, beq_iff_eq.mp hkey⟩)
  · exact .inr (lastIndex_eq_some hturn).1

/-- What is in one of the lists may be removed. -/
theorem evictable_of_candidate (hanchor : anchorIndex card promptID = some anchor)
    (h : candidate card promptID anchor i ≠ none) (he : (entries card)[i]? = some e) :
    Evictable card promptID anchor i e := by
  rw [getElem?_entries, map_eq_some_iff] at he
  obtain ⟨text, -, rfl⟩ := he
  simp only [candidate, ne_eq] at h
  split at h
  · rename_i hprompt
    split at h
    · rename_i hold
      refine ⟨Nat.ne_of_lt hold.1, fun _ => hold, fun ⟨hfinal, hpending⟩ => ?_⟩
      -- A pending final has a turn.
      rcases hprompt with hprompt | ⟨-, hturn⟩
      · cases hprompt.symm.trans hfinal
      rw [entryAt, hturn] at hpending
      simp [pendingFinal] at hpending
    · exact absurd rfl h
  rename_i hprompt
  split at h
  · exact absurd rfl h
  rename_i hfinal
  refine ⟨fun hi => ?_, fun h => absurd h hprompt, hfinal⟩
  obtain rfl := hi
  split at h
  · simp at h
  rename_i hother
  simp only [getD_eq_getElem?_getD, not_or] at hother
  rcases anchorIndex_eq_some hanchor with hkey | hturn
  · exact hother.1 (by rw [hkey]; rfl)
  · exact hother.2 (by rw [hturn]; rfl)

/-- The indices that are removed are in descending order. -/
theorem pairwise_removed {found : List Nat} (h : found.Nodup) (need : Nat) :
    ((found.take need).insertionSort (· ≤ ·)).reverse.Pairwise (· > ·) := by
  have hsorted : ((found.take need).insertionSort (· ≤ ·)).Pairwise (· ≤ ·) :=
    pairwise_insertionSort _ _
  have hnodup : ((found.take need).insertionSort (· ≤ ·)).Nodup :=
    (perm_insertionSort _ _).nodup_iff.mpr ((take_sublist _ _).nodup h)
  rw [pairwise_reverse]
  refine (hsorted.and hnodup).imp fun {a b} hab => ?_
  obtain ⟨hle, hne⟩ := hab
  omega

/-- What making room does: it removes entries that are not part of a pending final answer, until the
wanted ones fit. -/
structure Room (card : Card) (wanted : Nat) (next : Card) : Prop where
  aligned : Aligned next
  fits : next.history.length + wanted ≤ maxEntries
  pending : next.pendingFinalOperations = card.pendingFinalOperations
  removed : ∃ indices : List Nat, indices.Pairwise (· > ·) ∧
    entries next = removeEach indices (entries card) ∧
    ∀ i ∈ indices, ∀ e, (entries card)[i]? = some e → ¬(e.kind = .final ∧ pendingFinal card e.turn)

/-- What `EnsureRoomAfterPrompt` does with a card: it removes some of the candidates from the back. -/
theorem ensureRoomAfterPrompt_eq_ok (hok : ensureRoomAfterPrompt card promptID wanted = .ok next) :
    Aligned card ∧ wanted ≠ 0 ∧ ∃ anchor indices, anchorIndex card promptID = some anchor ∧
      next = removeEntries card indices ∧ indices.Pairwise (· > ·) ∧
      card.history.length + wanted ≤ maxEntries + indices.length ∧
      ∀ i ∈ indices, i < card.history.length ∧ candidate card promptID anchor i ≠ none := by
  replace hok := of_check hok
  obtain ⟨hrequest, hok⟩ := check_eq_ok.mp hok
  obtain ⟨hcolumns, hok⟩ := check_eq_ok.mp hok
  simp only [refuse_eq_ok, or_eq_false_iff, decide_eq_false_iff_not] at hrequest hcolumns
  obtain ⟨⟨hkeys, hkinds⟩, hturns⟩ := hcolumns
  refine ⟨⟨by omega, isColumn_of_misaligned hkeys, isColumn_of_misaligned hturns,
    isColumn_of_misaligned hkinds⟩, by omega, ?_⟩
  split at hok
  · cases hok
  rename_i anchor hanchor
  unfold makeRoom at hok
  dsimp only at hok
  split at hok
  · obtain rfl := ok.inj hok
    exact ⟨anchor, [], hanchor, rfl, .nil, by simp; omega, by simp⟩
  obtain ⟨henough, hok⟩ := check_eq_ok.mp hok
  obtain rfl := ok.inj hok
  simp only [refuse_eq_ok, decide_eq_false_iff_not, Nat.not_lt] at henough
  refine ⟨anchor, _, hanchor, rfl, pairwise_removed (nodup_candidates card promptID anchor) _,
    ?_, fun i hi => ?_⟩
  · rw [length_reverse, length_insertionSort, length_take]
    omega
  rw [mem_reverse, mem_insertionSort] at hi
  have hi := mem_of_mem_take hi
  simp only [candidates, mem_append, mem_filter, mem_range, decide_eq_true_eq] at hi
  rcases hi with (⟨hi, hc⟩ | ⟨hi, hc⟩) | ⟨hi, hc⟩ <;> exact ⟨hi, by simp [hc]⟩

theorem removeEntries_aligned (h : Aligned card) {indices : List Nat}
    (hback : indices.Pairwise (· > ·)) (hlt : ∀ i ∈ indices, i < card.history.length) :
    Aligned (removeEntries card indices) ∧
      (removeEntries card indices).history.length + indices.length = card.history.length := by
  have hleft : (removeEntries card indices).history.length + indices.length =
      card.history.length := length_removeEach hback hlt
  have hlength : (removeEntries card indices).history.length =
      card.history.length - indices.length := by omega
  have hcolumn : ∀ {β : Type} {column : List β}, IsColumn column card.history.length →
      IsColumn (removeEach indices column) (removeEntries card indices).history.length := by
    intro β column hcolumn
    rw [hlength]
    exact isColumn_removeEach hcolumn hback hlt
  have hbound := h.bound
  exact ⟨⟨by omega, hcolumn h.keys, hcolumn h.turns, hcolumn h.kinds⟩, hleft⟩

theorem ensureRoomAfterPrompt_room (hok : ensureRoomAfterPrompt card promptID wanted = .ok next) :
    Room card wanted next := by
  obtain ⟨h, -, anchor, indices, hanchor, rfl, hback, hfits, hcandidate⟩ :=
    ensureRoomAfterPrompt_eq_ok hok
  obtain ⟨haligned, hleft⟩ := removeEntries_aligned h hback fun i hi => (hcandidate i hi).1
  refine ⟨haligned, by omega, rfl, indices, hback, entries_removeEntries card indices,
    fun i hi e he => ?_⟩
  exact (evictable_of_candidate hanchor (hcandidate i hi).2 he).final

/-- Making room keeps what matters: what is left has its order and its metadata, with the prompt among
it, and only what may be removed is gone. -/
theorem ensureRoomAfterPrompt_keeps (hok : ensureRoomAfterPrompt card promptID wanted = .ok next) :
    Aligned next ∧ next.history.length + wanted ≤ maxEntries ∧
      (anchorIndex next promptID).isSome ∧ (entries next).Sublist (entries card) ∧
      ∃ anchor indices, anchorIndex card promptID = some anchor ∧ indices.Pairwise (· > ·) ∧
        entries next = removeEach indices (entries card) ∧
        ∀ i ∈ indices, ∀ e, (entries card)[i]? = some e → Evictable card promptID anchor i e := by
  have hroom := ensureRoomAfterPrompt_room hok
  obtain ⟨h, -, anchor, indices, hanchor, rfl, hback, hfits, hcandidate⟩ :=
    ensureRoomAfterPrompt_eq_ok hok
  have hevictable : ∀ i ∈ indices, ∀ e, (entries card)[i]? = some e →
      Evictable card promptID anchor i e :=
    fun i hi e he => evictable_of_candidate hanchor (hcandidate i hi).2 he
  have hentries := entries_removeEntries card indices
  refine ⟨hroom.aligned, hroom.fits, ?_, by rw [hentries]; exact removeEach_sublist _ _, anchor,
    indices, hanchor, hback, hentries, hevictable⟩
  -- The anchor is not removed, so its key or its turn key is left.
  have hkept : anchor ∉ indices := by
    intro hmem
    have hlt := (hcandidate anchor hmem).1
    have he := getElem?_entries card anchor
    rw [getElem?_eq_getElem hlt] at he
    exact (hevictable anchor hmem _ he).ne rfl
  rw [anchorIndex, Option.isSome_or, or_eq_true]
  rcases anchorIndex_eq_some hanchor with hkey | hturn
  · left
    rw [findIdx?_isSome, any_eq_true]
    exact ⟨promptID, mem_removeEach hback hkept hkey, beq_self_eq_true promptID⟩
  right
  rw [Option.isSome_iff_ne_none]
  exact fun hnone => lastIndex_eq_none.mp hnone (mem_removeEach hback hkept hturn)

/-- A card with a prompt and an entry that belongs to none. -/
def prompted : Card :=
  { newCard (ofText "s") with
    history := [ofText "hi", ofText "x"]
    historyKeys := [ofText "p", []] }

/-- The entry makes room for 511 more. -/
theorem prompted_makes_room :
    ∃ next, ensureRoomAfterPrompt prompted (ofText "p") 511 = .ok next ∧ Aligned next ∧
      next.history.length = 1 ∧ (anchorIndex next (ofText "p")).isSome := by
  have hlength : ((ensureRoomAfterPrompt prompted (ofText "p") 511).map
      (·.history.length)).toOption = some 1 := by decide +kernel
  rcases hok : ensureRoomAfterPrompt prompted (ofText "p") 511 with e | next
  · rw [hok] at hlength
    cases hlength
  rw [hok] at hlength
  obtain ⟨haligned, -, hanchor, -⟩ := ensureRoomAfterPrompt_keeps hok
  exact ⟨next, rfl, haligned, some.inj hlength, hanchor⟩

end Bria.CardHistory
