import Bria.Base.Machine
import Bria.CardHistory.Finals

/-!
# Pending final answers

`RestoreFinal` lists the operation of an answer as pending until the answer is delivered. Making room
for an event or for another answer spares the parts of pending answers, but `Append`, and
`SetCardPrompt` of a new prompt, drop the oldest entry of a full history whatever it is
(`complete_iff_spares`).
-/

namespace Bria.CardHistory

open Go TelegramState Machine List

/-- An operation on the history of a card. -/
inductive HistoryOp where
  | append (item : GoString) (kind : HistoryKind)
  | setCardPrompt (messageID item : GoString)
  | insertRuntimeEvent (promptID eventID item : GoString) (kind : HistoryKind)
  | restoreFinal (messageID final : GoString)

section

variable (digest : GoString → GoString) (op : HistoryOp)

/-- The card that an operation returns. -/
def HistoryOp.apply (card : Card) : HistoryOp → Except Err Card
  | .append item kind => .ok (CardHistory.append card item kind)
  | .setCardPrompt messageID item => do
    refuse (blank messageID || messageID != trimSpace messageID || item.isEmpty)
      (.message "session, prompt message, and history item are required")
    .ok ((setPrompt card messageID item).getD card)
  | .insertRuntimeEvent promptID eventID item kind =>
    CardHistory.insertRuntimeEvent digest card promptID eventID item kind
  | .restoreFinal messageID final => CardHistory.restoreFinal card messageID final

/-- A card, and the answers that `RestoreFinal` has put into it, with their parts. -/
structure Watched where
  card : Card
  recorded : List (GoString × List GoString) := []

variable (w : Watched)

/-- The answer that an operation puts in. `RestoreFinal` of an answer that is there changes
nothing. -/
def HistoryOp.records (before after : Card) : List (GoString × List GoString) :=
  match op with
  | .restoreFinal messageID _ =>
    if retainedFinal before messageID = [] then [(messageID, finals messageID after)] else []
  | _ => []

/-- An operation that is accepted. -/
def Watched.step : Option Watched :=
  (op.apply digest w.card).toOption.map fun card =>
    { card, recorded := op.records w.card card ++ w.recorded }

/-- Every recorded answer that is listed as pending has all its parts in the history. -/
def Complete : Prop :=
  ∀ messageID parts, (messageID, parts) ∈ w.recorded →
    finalOperation messageID ∈ w.card.pendingFinalOperations → finals messageID w.card = parts

/-- Whether an operation appends an entry. -/
def HistoryOp.appends (card : Card) : HistoryOp → Bool
  | .append _ _ => true
  | .setCardPrompt messageID _ => (card.historyKeys.findIdx? (· == messageID)).isNone
  | _ => false

/-- An operation that does not append to a full history whose oldest entry is a part of a recorded
answer that is pending. -/
def Spares : Prop :=
  op.appends w.card → maxEntries ≤ w.card.history.length →
    ∀ oldest, (entries w.card).head? = some oldest → ∀ messageID parts,
      (messageID, parts) ∈ w.recorded →
        finalOperation messageID ∈ w.card.pendingFinalOperations → isFinal messageID oldest = false

end

/-! ## One operation -/

/-- An entry of a history with recorded answers: the part of an answer has a text, and that of a
recorded one no key. -/
structure Proper (recorded : List (GoString × List GoString)) (e : Entry) : Prop where
  text : e.kind = .final → e.turn ≠ [] → e.item ≠ []
  key : ∀ messageID parts, (messageID, parts) ∈ recorded → isFinal messageID e → e.key = []

/-- What the operations keep of a card whose answers are complete. -/
structure Kept (w : Watched) : Prop where
  aligned : Aligned w.card
  complete : Complete w
  proper : ∀ e ∈ entries w.card, Proper w.recorded e
  recorded : ∀ messageID parts, (messageID, parts) ∈ w.recorded → messageID ≠ [] ∧
    parts.flatten ≠ [] ∧ finalOperation messageID ∈ w.card.pendingFinalOperations

variable {w : Watched} {next : Card} {messageID item : GoString} {parts : List GoString} {e : Entry}
  {op : HistoryOp} {digest : GoString → GoString}

/-- An operation that keeps the recorded parts keeps the card complete. -/
theorem Kept.of_finals (h : Kept w) (haligned : Aligned next)
    (hpending : ∀ operation ∈ w.card.pendingFinalOperations,
      operation ∈ next.pendingFinalOperations) (hproper : ∀ e ∈ entries next, Proper w.recorded e)
    (hfinals : ∀ messageID parts, (messageID, parts) ∈ w.recorded →
      finals messageID next = finals messageID w.card) :
    Kept { w with card := next } := by
  refine ⟨haligned, fun messageID parts hmem _ => ?_, hproper, fun messageID parts hmem => ?_⟩
  · rw [hfinals messageID parts hmem]
    exact h.complete messageID parts hmem (h.recorded messageID parts hmem).2.2
  obtain ⟨hset, htext, hlisted⟩ := h.recorded messageID parts hmem
  exact ⟨hset, htext, hpending _ hlisted⟩

/-- A recorded answer is pending. -/
theorem Kept.pendingFinal (h : Kept w) (hmem : (messageID, parts) ∈ w.recorded) :
    pendingFinal w.card messageID := by
  obtain ⟨hset, -, hlisted⟩ := h.recorded messageID parts hmem
  exact pendingFinal_eq_true.mpr ⟨hset, hlisted⟩

/-- An entry without a turn key is part of no recorded answer. -/
theorem Kept.not_final (h : Kept w) (he : e.turn = []) (hmem : (messageID, parts) ∈ w.recorded) :
    isFinal messageID e = false := by
  refine isFinal_eq_false.mpr fun ⟨hturn, _⟩ => (h.recorded messageID parts hmem).1 ?_
  rw [← hturn, he]

theorem Kept.appended (h : Kept w) (hop : op.appends w.card) (he : e.turn = [])
    (haligned : Aligned next)
    (hpending : next.pendingFinalOperations = w.card.pendingFinalOperations)
    (hentries : entries next = latest (entries w.card) ++ [e]) :
    (Complete { w with card := next } ↔ Spares op w) ∧
      (Complete { w with card := next } → Kept { w with card := next }) := by
  have hfinals : ∀ messageID parts, (messageID, parts) ∈ w.recorded →
      (finals messageID next = finals messageID w.card ↔
        (maxEntries ≤ w.card.history.length → ∀ oldest, (entries w.card).head? = some oldest →
          isFinal messageID oldest = false)) := fun messageID parts hmem =>
    finals_appended h.aligned hentries (h.not_final he hmem)
  have hcomplete : ∀ messageID parts, (messageID, parts) ∈ w.recorded →
      finals messageID w.card = parts := fun messageID parts hmem =>
    h.complete messageID parts hmem (h.recorded messageID parts hmem).2.2
  refine ⟨⟨fun hnext _ hfull oldest holdest messageID parts hmem hlisted => ?_,
    fun hspares messageID parts hmem hlisted => ?_⟩, fun hnext => ?_⟩
  · refine (hfinals messageID parts hmem).mp ?_ hfull oldest holdest
    rw [hcomplete messageID parts hmem]
    exact hnext messageID parts hmem (hpending ▸ hlisted)
  · rw [← hcomplete messageID parts hmem]
    refine (hfinals messageID parts hmem).mpr fun hfull oldest holdest => ?_
    exact hspares hop hfull oldest holdest messageID parts hmem (hpending ▸ hlisted)
  refine h.of_finals haligned (fun operation hmem => hpending ▸ hmem) (fun x hx => ?_)
    fun messageID parts hmem => ?_
  · rw [hentries, mem_append, mem_singleton] at hx
    rcases hx with hx | rfl
    · exact h.proper x (mem_of_mem_drop hx)
    refine ⟨fun _ hturn => absurd he hturn, fun messageID parts hmem hfinal => ?_⟩
    rw [h.not_final he hmem] at hfinal
    cases hfinal
  rw [hcomplete messageID parts hmem]
  exact hnext messageID parts hmem (hpending ▸ (h.recorded messageID parts hmem).2.2)

/-- An operation that appends nothing and keeps the recorded answers. -/
theorem Kept.spared (h : Kept { w with card := next }) (hop : op.appends w.card = false) :
    (Complete { w with card := next } ↔ Spares op w) ∧
      (Complete { w with card := next } → Kept { w with card := next }) := by
  refine ⟨iff_of_true h.complete fun happends => ?_, fun _ => h⟩
  rw [hop] at happends
  cases happends

/-- `SetCardPrompt` of a prompt that is there. -/
theorem Kept.reworded (h : Kept w) (hmessage : messageID ≠ []) (hitem : item ≠ []) {index : Nat}
    (hindex : w.card.historyKeys.findIdx? (· == messageID) = some index) :
    Kept { card := { w.card with history := w.card.history.set index item },
           recorded := w.recorded } := by
  obtain ⟨e, hat, hkey, haligned, hentries⟩ := setPrompt_found h.aligned hindex item
  have hproper := h.proper e (mem_of_getElem? hat)
  -- The entry has a key, so it is not a part of a recorded answer.
  have hother : ∀ other parts, (other, parts) ∈ w.recorded → isFinal other e = false := by
    intro other parts hmem
    by_contra hfinal
    have hnone := hproper.key other parts hmem (by simpa using hfinal)
    rw [hkey] at hnone
    exact hmessage hnone
  refine h.of_finals haligned (fun _ hmem => hmem) (fun x hx => ?_) fun other parts hmem => ?_
  · rw [hentries] at hx
    rcases mem_or_eq_of_mem_set hx with hx | rfl
    · exact h.proper x hx
    refine ⟨fun _ _ => hitem, fun other parts hmem hfinal => ?_⟩
    have hnot := hother other parts hmem
    rw [isFinal_eq_false] at hnot
    exact absurd (isFinal_eq_true.mp hfinal) hnot
  rw [finals, hentries, finals]
  refine map_filter_set hat rfl fun hfinal => ?_
  rw [hother other parts hmem] at hfinal
  cases hfinal

/-- An entry of a history in which room was made. -/
theorem Kept.roomed (h : Kept w) {wanted : Nat} {roomed : Card} (hroom : Room w.card wanted roomed) :
    (∀ e ∈ entries roomed, Proper w.recorded e) ∧
      ∀ messageID parts, (messageID, parts) ∈ w.recorded →
        finals messageID roomed = finals messageID w.card := by
  obtain ⟨indices, -, hentries, -⟩ := hroom.removed
  refine ⟨fun e he => h.proper e ?_, fun messageID parts hmem => ?_⟩
  · rw [hentries] at he
    exact mem_of_mem_removeEach he
  · exact hroom.finals (h.pendingFinal hmem)

theorem Kept.inserted (h : Kept w) {promptID eventID : GoString} {kind : HistoryKind}
    (hok : insertRuntimeEvent digest w.card promptID eventID item kind = .ok next) :
    Kept { w with card := next } := by
  rcases insertRuntimeEvent_eq_ok hok with rfl |
    ⟨roomed, index, hroom, haligned, hpending, hkind, hentries⟩
  · exact h
  obtain ⟨hproper, hfinals⟩ := h.roomed hroom
  have hother : ∀ messageID, isFinal messageID
      ⟨item, eventKey digest promptID eventID, promptID, kind⟩ = false :=
    fun messageID => isFinal_eq_false.mpr fun hfinal => hkind hfinal.2
  refine h.of_finals haligned (fun operation hmem => hpending ▸ hmem) (fun e he => ?_)
    fun messageID parts hmem => ?_
  · rw [hentries, insertAt, mem_append, mem_cons] at he
    rcases he with he | rfl | he
    · exact hproper e (mem_of_mem_take he)
    · refine ⟨fun hfinal => absurd hfinal hkind, fun messageID parts _ hfinal => ?_⟩
      rw [hother messageID] at hfinal
      cases hfinal
    · exact hproper e (mem_of_mem_drop he)
  rw [← hfinals messageID parts hmem, finals, hentries,
    filter_insertAt_neg (hother messageID), finals]

/-- `RestoreFinal` of an answer that is not in the history. -/
theorem Kept.recordedFinal (h : Kept w) {final : GoString} (hmessage : messageID ≠ [])
    (hfinal : final ≠ []) (hvalid : validString final) (hnone : retainedFinal w.card messageID = [])
    (hok : recordFinal w.card messageID final = .ok next) :
    Kept { card := next, recorded := (messageID, finals messageID next) :: w.recorded } := by
  obtain ⟨roomed, restored, hroom, hrestored, hentries, haligned, hlisted, hpending⟩ :=
    recordFinal_eq_ok hmessage hok
  obtain ⟨hproper, hfinals⟩ := h.roomed hroom
  obtain ⟨hflatten, hparts⟩ := finalParts_flatten (Nat.le_refl _) hvalid
  rw [retainedFinal_eq h.aligned hmessage] at hnone
  have hsame : ∀ other, finals other next = finals other restored := by
    intro other
    rw [finals, hentries, finals]
  -- An answer that was recorded before has a text, so it is another one.
  have hother : ∀ other parts, (other, parts) ∈ w.recorded → other ≠ messageID := by
    rintro other parts hmem rfl
    obtain ⟨-, htext, hlisted⟩ := h.recorded other parts hmem
    rw [← h.complete other parts hmem hlisted] at htext
    exact htext hnone
  have hrecorded : (finals messageID next).flatten ≠ [] := by
    rw [hsame, hrestored.self, flatten_append, hflatten]
    exact fun hempty => hfinal (append_eq_nil_iff.mp hempty).2
  have hnotext : ∀ e ∈ entries roomed, isFinal messageID e → False := by
    intro e he hfinal'
    obtain ⟨hturn, hkind⟩ := isFinal_eq_true.mp hfinal'
    obtain ⟨indices, -, hremoved, -⟩ := hroom.removed
    have hmem : e ∈ entries w.card := mem_of_mem_removeEach (hremoved ▸ he)
    refine (hproper e he).text hkind (hturn ▸ hmessage) ?_
    refine flatten_eq_nil_iff.mp hnone e.item ?_
    exact mem_map_of_mem (mem_filter.mpr ⟨hmem, hfinal'⟩)
  refine ⟨haligned, fun other parts hmem _ => ?_, fun e he => ?_, fun other parts hmem => ?_⟩
  · rcases mem_cons.mp hmem with hmem | hmem
    · obtain ⟨rfl, rfl⟩ := Prod.mk.inj hmem
      rfl
    have hlisted' := (h.recorded other parts hmem).2.2
    rw [hsame, hrestored.other other (hother other parts hmem), hfinals other parts hmem]
    exact h.complete other parts hmem hlisted'
  · rw [hentries] at he
    rcases hrestored.entry e he with he | ⟨hkey, hturn, hitem⟩
    · refine ⟨(hproper e he).text, fun other parts hmem hfinal' => ?_⟩
      rcases mem_cons.mp hmem with hmem | hmem
      · obtain ⟨rfl, rfl⟩ := Prod.mk.inj hmem
        exact (hnotext e he hfinal').elim
      · exact (hproper e he).key other parts hmem hfinal'
    · exact ⟨fun _ _ => hparts e.item hitem, fun _ _ _ _ => hkey⟩
  rcases mem_cons.mp hmem with hmem | hmem
  · obtain ⟨rfl, rfl⟩ := Prod.mk.inj hmem
    exact ⟨hmessage, hrecorded, hlisted⟩
  obtain ⟨hset, htext, hlisted'⟩ := h.recorded other parts hmem
  exact ⟨hset, htext, hpending _ hlisted'⟩

/-- After an accepted operation the answers are complete exactly if it spares them. -/
theorem Kept.step {w' : Watched} (h : Kept w) (hstep : Watched.step digest op w = some w') :
    (Complete w' ↔ Spares op w) ∧ (Complete w' → Kept w') := by
  obtain ⟨next, hnext, rfl⟩ := map_eq_some_iff.mp hstep
  have hok : op.apply digest w.card = .ok next := by
    cases happly : op.apply digest w.card with
    | error e => simp [happly, Except.toOption] at hnext
    | ok card => simpa [happly, Except.toOption] using hnext
  cases op with
  | append item kind =>
    obtain rfl := ok.inj hok
    have hentries := entries_append h.aligned item kind
    have hpending : (append w.card item kind).pendingFinalOperations =
        w.card.pendingFinalOperations := by
      simp only [append, appendEntry]
      split <;> simp only [trimmed]
    exact h.appended rfl rfl (append_aligned h.aligned) hpending hentries
  | setCardPrompt messageID item =>
    obtain ⟨hargs, hok⟩ := check_eq_ok.mp hok
    obtain rfl := ok.inj hok
    simp only [refuse_eq_ok, or_eq_false_iff, isEmpty_eq_false_iff] at hargs
    have hmessage : messageID ≠ [] := by
      rintro rfl
      cases hargs.1.1
    cases hfound : w.card.historyKeys.findIdx? (· == messageID) with
    | none =>
      have happends : (HistoryOp.setCardPrompt messageID item).appends w.card := by
        simp only [HistoryOp.appends, hfound, Option.isNone_none]
      have hcard : (setPrompt w.card messageID item).getD w.card =
          appendPrompt w.card messageID item := by
        simp only [setPrompt, hfound, getD_some]
      rw [hcard]
      obtain ⟨haligned, hentries⟩ := entries_appendPrompt h.aligned messageID item
      have hpending : (appendPrompt w.card messageID item).pendingFinalOperations =
          w.card.pendingFinalOperations := by
        simp only [appendPrompt, append, appendEntry]
        split <;> simp only [trimmed]
      exact h.appended happends rfl haligned hpending hentries
    | some index =>
      have happends : (HistoryOp.setCardPrompt messageID item).appends w.card = false := by
        simp only [HistoryOp.appends, hfound, Option.isNone_some]
      simp only [setPrompt, hfound]
      split
      · exact Kept.spared h happends
      · exact (h.reworded hmessage hargs.2 hfound).spared happends
  | insertRuntimeEvent promptID eventID item kind => exact (h.inserted hok).spared rfl
  | restoreFinal messageID final =>
    obtain ⟨hargs, hok⟩ := check_eq_ok.mp hok
    simp only [refuse_eq_ok, or_eq_false_iff, isEmpty_eq_false_iff, not_eq_false'] at hargs
    have hmessage : messageID ≠ [] := hargs.1.1.1.1.1.1
    have hfinal : final ≠ [] := hargs.1.1.2
    have hvalid : validString final := hargs.1.2
    split at hok
    · rename_i hretained
      replace hok := of_check hok
      obtain rfl := ok.inj hok
      simp only [HistoryOp.records, if_neg hretained, nil_append]
      exact Kept.spared h rfl
    rename_i hnone
    rw [not_not] at hnone
    simp only [HistoryOp.records, if_pos hnone, cons_append, nil_append]
    have hkept := h.recordedFinal hmessage hfinal hvalid hnone hok
    refine ⟨iff_of_true hkept.complete fun happends => ?_, fun _ => hkept⟩
    cases happends

/-! ## Runs -/

/-- A card that `Validate` accepts, before any answer is recorded. -/
theorem kept_of_validateCard {id : GoString} {card : Card}
    (h : validateCard ⟨id, card⟩ = .ok ()) : Kept { card } := by
  obtain ⟨haligned, hitems⟩ := aligned_of_validateCard h
  refine ⟨haligned, fun _ _ hmem => (not_mem_nil hmem).elim, fun e he => ?_,
    fun _ _ hmem => (not_mem_nil hmem).elim⟩
  refine ⟨fun _ _ => ?_, fun _ _ hmem => (not_mem_nil hmem).elim⟩
  obtain ⟨i, hi⟩ := mem_iff_getElem?.mp he
  rw [getElem?_entries, map_eq_some_iff] at hi
  obtain ⟨item, hitem, rfl⟩ := hi
  exact hitems item (mem_of_getElem? hitem)

/-- From a card that `Validate` accepts, a run of accepted operations keeps every recorded and
pending answer complete exactly if none of its steps appends to a full history whose oldest entry is
a part of such an answer. -/
theorem complete_iff_spares {digest : GoString → GoString} {id : GoString} {card : Card}
    {run : List HistoryOp} {last : Watched} (hcard : validateCard ⟨id, card⟩ = .ok ())
    (hrun : exec (Watched.step digest) run { card } = some last) :
    (∀ front back w, run = front ++ back →
        exec (Watched.step digest) front { card } = some w → Complete w) ↔
      Along (Watched.step digest) Spares run { card } :=
  forall_prefixes_iff_along (fun _ _ _ hw hstep => hw.step hstep) (fun _ hw => hw.complete)
    (kept_of_validateCard hcard) hrun

/-- A prompt is answered, and something is appended. -/
def answered : List HistoryOp :=
  [.setCardPrompt (ofText "p") (ofText "hi"), .restoreFinal (ofText "p") (ofText "ok"),
    .append (ofText "x") .plain]

/-- The answer stays complete. -/
theorem answered_complete :
    (∃ last, exec (Watched.step id) answered { card := newCard (ofText "s") } = some last) ∧
      ∀ front back w, answered = front ++ back →
        exec (Watched.step id) front { card := newCard (ofText "s") } = some w → Complete w := by
  have hcard : validateCard ⟨ofText "s", newCard (ofText "s")⟩ = .ok () := rfl
  obtain ⟨last, hrun⟩ : ∃ last, exec (Watched.step id) answered
      { card := newCard (ofText "s") } = some last := ⟨_, rfl⟩
  refine ⟨⟨last, hrun⟩, (complete_iff_spares hcard hrun).mpr ⟨?_, ?_, ?_, trivial⟩⟩ <;>
    exact fun _ hfull => absurd hfull (by decide)

/-- A card with a prompt and 510 later entries. -/
def crowded : Card :=
  { newCard (ofText "s") with
    history := ofText "hi" :: replicate 510 (ofText "x")
    historyKeys := ofText "p" :: replicate 510 [] }

/-- The card with the answer to the prompt. -/
def crowdedAnswered : Card :=
  { newCard (ofText "s") with
    history := ofText "hi" :: ofText "ok" :: replicate 510 (ofText "x")
    historyKeys := ofText "p" :: replicate 511 []
    historyTurnKeys := [] :: ofText "p" :: replicate 510 []
    historyKinds := .plain :: .final :: replicate 510 .plain
    pendingFinalOperations := [ofText "p:final"] }

/-- The card after one more entry. -/
def crowdedOnce : Card :=
  { newCard (ofText "s") with
    history := ofText "ok" :: (replicate 510 (ofText "x") ++ [ofText "y"])
    historyKeys := replicate 512 []
    historyTurnKeys := ofText "p" :: replicate 511 []
    historyKinds := .final :: replicate 511 .plain
    pendingFinalOperations := [ofText "p:final"] }

/-- The card after two more entries. -/
def crowdedTwice : Card :=
  { newCard (ofText "s") with
    history := replicate 510 (ofText "x") ++ [ofText "y", ofText "z"]
    historyKeys := replicate 512 []
    historyTurnKeys := replicate 512 []
    historyKinds := replicate 512 .plain
    pendingFinalOperations := [ofText "p:final"] }

/-- The prompt is answered, and two entries are appended. The first of them drops the prompt, and
the second drops the answer, which is still pending. -/
theorem answer_dropped :
    validateCard ⟨ofText "s", crowded⟩ = .ok () ∧
      ∃ last, exec (Watched.step id) [.restoreFinal (ofText "p") (ofText "ok"),
          .append (ofText "y") .plain, .append (ofText "z") .plain] { card := crowded } =
        some last ∧
        finalOperation (ofText "p") ∈ last.card.pendingFinalOperations ∧
        finals (ofText "p") last.card = [] ∧ ¬Complete last := by
  have hvalid : errorOf (validateCard ⟨ofText "s", crowded⟩) = none := by decide +kernel
  have hfirst : (restoreFinal crowded (ofText "p") (ofText "ok")).toOption =
      some crowdedAnswered := by decide +kernel
  have hsecond : append crowdedAnswered (ofText "y") .plain = crowdedOnce := by decide +kernel
  have hthird : append crowdedOnce (ofText "z") .plain = crowdedTwice := by decide +kernel
  have hnone : retainedFinal crowded (ofText "p") = [] := rfl
  have hdropped : finals (ofText "p") crowdedTwice = [] := by
    rw [finals, map_eq_nil_iff, filter_eq_nil_iff]
    intro e he
    obtain ⟨i, hi⟩ := mem_iff_getElem?.mp he
    rw [getElem?_entries, map_eq_some_iff] at hi
    obtain ⟨item, -, rfl⟩ := hi
    have hturn : (entryAt crowdedTwice i item).turn = [] := by
      simp only [entryAt, crowdedTwice, getD_eq_getElem?_getD, getElem?_replicate]
      split <;> rfl
    rw [isFinal_eq_true, hturn]
    rintro ⟨hempty, -⟩
    cases hempty
  have hparts : finals (ofText "p") crowdedAnswered ≠ [] := by
    have hmem : (⟨ofText "ok", [], ofText "p", .final⟩ : Entry) ∈ entries crowdedAnswered :=
      mem_of_getElem? (i := 1) (by rw [getElem?_entries]; rfl)
    exact ne_nil_of_mem (mem_map_of_mem (mem_filter.mpr ⟨hmem, rfl⟩))
  refine ⟨errorOf_eq_none.mp hvalid,
    ⟨crowdedTwice, [(ofText "p", finals (ofText "p") crowdedAnswered)]⟩, ?_, mem_cons_self,
    hdropped, fun hcomplete => ?_⟩
  · refine exec_cons.mpr ⟨⟨crowdedAnswered, [(ofText "p", finals (ofText "p") crowdedAnswered)]⟩,
      ?_, exec_cons.mpr ⟨⟨crowdedOnce, [(ofText "p", finals (ofText "p") crowdedAnswered)]⟩, ?_,
        exec_cons.mpr ⟨_, ?_, rfl⟩⟩⟩
    · simp only [Watched.step, HistoryOp.apply, hfirst, map_some, HistoryOp.records, hnone,
        if_true, append_nil]
    · simp only [Watched.step, HistoryOp.apply, hsecond, Except.toOption, map_some,
        HistoryOp.records, nil_append]
    simp only [Watched.step, HistoryOp.apply, hthird, Except.toOption, map_some,
      HistoryOp.records, nil_append]
  · have hlost := hcomplete (ofText "p") _ mem_cons_self mem_cons_self
    rw [hdropped] at hlost
    exact hparts hlost.symm

end Bria.CardHistory
