import Bria.NodeLink.Ledger

/-!
# Operations are applied at most once

What happened to an operation so far says what the ledger must still know of it: `expected` reads it
off the events. An operation that ran and did not fail is on record until it is resolved as not
applied, in memory and in the file, and one whose run was interrupted is on record as pending. Every
step keeps the record (`Account.Recorded`), and the apply function is called only for an operation
that is not on record (`applied_at_most_once`).

The file gives back other ids than it was given if they are not UTF-8: such an operation is forgotten
when the file is opened, and runs again (`applied_twice`). A digest that is not UTF-8 comes back as
another one, and its operation is then in conflict with itself. And a failed operation is not on
record, so its id may be used for other content.
-/

namespace Bria.NodeLink

open Go Machine Ledger Write

/-! ## What the ledger is expected to know -/

/-- What the ledger must know of an operation: its digest, and whether it must be pending. -/
structure Expected where
  digest : GoString
  pending : Bool

/-- What one event does to the expectation for an id. -/
def expect (id : GoString) (expected : Option Expected) : Event → Option Expected
  | .ran operation effect =>
    if operation.id = id then
      match effect with
      | .completed => some { digest := operation.digest, pending := false }
      | .interrupted => some { digest := operation.digest, pending := true }
      | .failed _ => none
    else expected
  | .resolved operation resolution =>
    if operation.id = id then
      match resolution with
      | .applied => expected.map fun e => { e with pending := false }
      | .notApplied => none
    else expected

/-- What the ledger must know of an id after the events. -/
def expectedAfter (id : GoString) (events : List Event) : Option Expected :=
  events.foldl (expect id) none

/-- An entry is as expected. Its digest may have been read back from the file. -/
def Meets (expected : Expected) (entry : LedgerEntry) : Prop :=
  (entry.digest = expected.digest ∨ entry.digest = jsonText expected.digest) ∧
    (expected.pending → entry.phase = .pending)

/-- The entries know of an id what is expected. -/
def Knows (id : GoString) (expected : Option Expected) (entries : Entries) : Prop :=
  ∀ e, expected = some e → ∃ entry, entries.lookup id = some entry ∧ Meets e entry

/-- The ledger knows what is expected, in memory and in its file. -/
structure Recorded (id : GoString) (expected : Option Expected) (ledger : Ledger) : Prop where
  memory : Knows id expected ledger.stored.memory
  file : Knows id expected ledger.stored.file

variable {id other : GoString} {expected : Option Expected} {ledger : Ledger}
  {operation : Operation} {effect : Effect}

variable {entries : Entries}

/-- Nothing is expected of an id that is not on record. -/
theorem Knows.none_of_lookup (h : Knows id expected entries)
    (hlookup : entries.lookup id = none) : expected = none := by
  rcases hexpected : expected with _ | e
  · rfl
  obtain ⟨entry, hentry, -⟩ := h e hexpected
  rw [hlookup] at hentry
  cases hentry

variable {entry : LedgerEntry}

theorem Knows.insert_ne (h : Knows id expected entries) (hne : id ≠ other) :
    Knows id expected (entries.insert other entry) := by
  intro e he
  rw [AList.lookup_insert_ne hne]
  exact h e he

theorem Knows.erase_ne (h : Knows id expected entries) (hne : id ≠ other) :
    Knows id expected (entries.erase other) := by
  intro e he
  rw [AList.lookup_erase_ne hne]
  exact h e he

/-- An assignment of an entry that is as expected. -/
theorem knows_insert
    (h : ∀ e, expected = some e → Meets e entry) : Knows id expected (entries.insert id entry) := by
  intro e he
  exact ⟨entry, AList.lookup_insert _, h e he⟩

/-! ## Calls -/

/-- Nothing expected is recorded. -/
theorem recorded_none (id : GoString) (ledger : Ledger) : Recorded id none ledger := ⟨nofun, nofun⟩

/-- What is known in memory is recorded once it is written, or stays as it was in the file. -/
theorem Recorded.persist (h : Recorded id expected ledger) (hentries : Knows id expected entries)
    (write : Write) : Recorded id expected ((ledger.withEntries entries).persist write).2 := by
  cases write with
  | refused => exact ⟨hentries, h.file⟩
  | late | done => exact ⟨hentries, hentries⟩

/-- What is recorded stays so if memory is exchanged for entries that know it. -/
theorem Recorded.withEntries (h : Recorded id expected ledger)
    (hentries : Knows id expected entries) : Recorded id expected (ledger.withEntries entries) :=
  ⟨hentries, h.file⟩

/-- An event of another operation changes no expectation. -/
theorem expect_ran_ne (hne : operation.id ≠ id) :
    expect id expected (.ran operation effect) = expected := if_neg hne

/-- `ApplyOnce` of a pending operation records how it ended. -/
theorem applyPending_self (call : Applying)
    (hmem : ledger.stored.memory.lookup operation.id =
      some { digest := operation.digest, phase := .pending })
    (hfile : ledger.stored.file.lookup operation.id =
      some { digest := operation.digest, phase := .pending }) :
    Recorded operation.id
      ((applyPending operation call ledger).events.foldl (expect operation.id) none)
      (applyPending operation call ledger).ledger := by
  unfold applyPending
  cases call.effect with
  | interrupted =>
    simp only [foldl_cons, foldl_nil, expect, ↓reduceIte]
    have hmeets : Meets ⟨operation.digest, true⟩ ⟨operation.digest, .pending⟩ :=
      ⟨.inl rfl, fun _ => rfl⟩
    refine ⟨fun e he => ?_, fun e he => ?_⟩ <;> obtain rfl := some.inj he
    · exact ⟨_, hmem, hmeets⟩
    · exact ⟨_, hfile, hmeets⟩
  | failed e =>
    simp only [foldl_cons, foldl_nil, expect, ↓reduceIte]
    exact recorded_none _ _
  | completed =>
    have hmeets : ∀ phase, Meets ⟨operation.digest, false⟩ ⟨operation.digest, phase⟩ :=
      fun phase => ⟨.inl rfl, nofun⟩
    have hknows : ∀ (entries : Entries) (phase : LedgerPhase),
        Knows operation.id (some ⟨operation.digest, false⟩)
          (entries.insert operation.id ⟨operation.digest, phase⟩) := by
      intro entries phase
      refine knows_insert fun e he => ?_
      obtain rfl := some.inj he
      exact hmeets phase
    have hbefore : Knows operation.id (some ⟨operation.digest, false⟩) ledger.stored.file := by
      intro e he
      obtain rfl := some.inj he
      exact ⟨_, hfile, hmeets .pending⟩
    cases call.second <;>
      simp only [persist, foldl_cons, foldl_nil, expect, ↓reduceIte]
    · exact ⟨hknows _ _, hbefore⟩
    · exact ⟨hknows _ _, hknows _ _⟩
    · exact ⟨hknows _ _, hknows _ _⟩

/-- `ApplyOnce` of another operation changes nothing. -/
theorem applyPending_ne (call : Applying) (hne : id ≠ operation.id)
    (h : Recorded id expected ledger) :
    Recorded id ((applyPending operation call ledger).events.foldl (expect id) expected)
      (applyPending operation call ledger).ledger := by
  unfold applyPending
  cases call.effect with
  | interrupted =>
    simp only [foldl_cons, foldl_nil, expect_ran_ne hne.symm]
    exact h
  | failed e =>
    simp only [foldl_cons, foldl_nil, expect_ran_ne hne.symm]
    exact h.persist (h.memory.erase_ne hne) call.second
  | completed =>
    have hknows : Knows id expected (ledger.stored.memory.insert operation.id
      { digest := operation.digest, phase := .applied }) := h.memory.insert_ne hne
    cases call.second <;>
      simp only [persist, foldl_cons, foldl_nil, expect_ran_ne hne.symm]
    · exact (h.persist hknows .refused).withEntries (hknows.insert_ne hne)
    · exact (h.persist hknows .late).withEntries (hknows.insert_ne hne)
    · exact h.persist hknows .done

/-- The run of a pending operation is all that happens. -/
theorem events_applyPending (operation : Operation) (call : Applying) (ledger : Ledger) :
    (applyPending operation call ledger).events = [.ran operation call.effect] := by
  unfold applyPending
  cases heffect : call.effect with
  | interrupted => rfl
  | failed e => rfl
  | completed => cases call.second <;> rfl

/-- `ApplyOnce` keeps the record, and runs an operation only if nothing is expected of it. -/
theorem applyOnce_spec (operation : Operation) (call : Applying) (h : Recorded id expected ledger) :
    Recorded id ((applyOnce operation call ledger).events.foldl (expect id) expected)
        (applyOnce operation call ledger).ledger ∧
      (applyOnce operation call ledger).events.length ≤ 1 ∧
      ∀ ran effect, .ran ran effect ∈ (applyOnce operation call ledger).events → ran.id = id →
        expected = none := by
  unfold applyOnce
  split
  · exact ⟨h, by simp, nofun⟩
  split
  · exact ⟨h, by simp, nofun⟩
  split
  · split_ifs <;> exact ⟨h, by simp, nofun⟩
  rename_i hlookup
  by_cases hid : operation.id = id
  · obtain rfl := hid
    have hnone : expected = none := h.memory.none_of_lookup hlookup
    subst hnone
    cases call.first with
    | refused | late => exact ⟨recorded_none _ _, by simp [persist], fun _ _ _ _ => rfl⟩
    | done =>
      refine ⟨applyPending_self call (AList.lookup_insert _) (AList.lookup_insert _), ?_,
        fun _ _ _ _ => rfl⟩
      simp only [persist, events_applyPending, length_singleton, Nat.le_refl]
  have hne : id ≠ operation.id := fun heq => hid heq.symm
  have hknows : Knows id expected (ledger.stored.memory.insert operation.id
    { digest := operation.digest, phase := .pending }) := h.memory.insert_ne hne
  cases call.first with
  | refused =>
    exact ⟨(h.persist hknows .refused).withEntries (hknows.erase_ne hne), by simp [persist], nofun⟩
  | late =>
    exact ⟨(h.persist hknows .late).withEntries (hknows.erase_ne hne), by simp [persist], nofun⟩
  | done =>
    refine ⟨applyPending_ne call hne (h.persist hknows .done), ?_, fun ran effect hran hsame => ?_⟩
    · simp only [persist, events_applyPending, length_singleton, Nat.le_refl]
    simp only [persist, events_applyPending, mem_singleton, Event.ran.injEq] at hran
    rw [hran.1] at hsame
    exact absurd hsame hid

/-- Only an operation with an id and a digest runs. -/
theorem named_of_ran {call : Applying} {ran : Operation}
    (h : .ran ran effect ∈ (applyOnce operation call ledger).events) :
    blank ran.id = false ∧ blank ran.digest = false := by
  unfold applyOnce at h
  split at h
  · cases h
  rename_i hnamed
  simp only [or_eq_true, not_or, Bool.not_eq_true] at hnamed
  split at h
  · cases h
  split at h
  · split_ifs at h <;> cases h
  cases hfirst : call.first with
  | refused | late => simp [hfirst, persist] at h
  | done =>
    simp only [hfirst, persist, events_applyPending, mem_singleton, Event.ran.injEq] at h
    rw [h.1]
    exact ⟨hnamed.1.2, hnamed.2⟩

variable {entries' : Entries}

/-- An entry of any phase is as expected if it need not be pending. -/
theorem Knows.settled {phase : LedgerPhase}
    (h : Knows id expected entries) (hlookup : entries.lookup id = some entry) :
    Knows id (expected.map fun e => { e with pending := false })
      (entries'.insert id { entry with phase }) := by
  refine knows_insert fun e he => ?_
  obtain ⟨before, hbefore, rfl⟩ := map_eq_some_iff.mp he
  obtain ⟨entry', hentry', hdigest, -⟩ := h before hbefore
  obtain rfl : entry = entry' := mem_unique hlookup hentry'
  exact ⟨hdigest, nofun⟩

/-- The entry that was found is as expected wherever it is written again. -/
theorem Knows.restored (h : Knows id expected entries) (hlookup : entries.lookup id = some entry) :
    Knows id expected (entries'.insert id entry) := by
  refine knows_insert fun e he => ?_
  obtain ⟨entry', hentry', hmeets⟩ := h e he
  rwa [mem_unique hlookup hentry']

/-- A resolution of another operation changes no expectation. -/
theorem expect_resolved_ne {resolution : OperationResolution} (hne : operation.id ≠ id) :
    expect id expected (.resolved operation resolution) = expected := if_neg hne

/-- `Resolve` keeps the record. -/
theorem resolve_spec (operation : Operation) (resolution : OperationResolution) (call : Resolving)
    (h : Recorded id expected ledger) :
    Recorded id ((resolve operation resolution call ledger).events.foldl (expect id) expected)
        (resolve operation resolution call ledger).ledger ∧
      (resolve operation resolution call ledger).events.length ≤ 1 ∧
      ∀ ran effect, .ran ran effect ∉ (resolve operation resolution call ledger).events := by
  unfold resolve
  split
  · exact ⟨h, by simp, nofun⟩
  split
  · exact ⟨h, by simp, nofun⟩
  split
  · exact ⟨h, by simp, nofun⟩
  rename_i entry hlookup
  split
  · exact ⟨h, by simp, nofun⟩
  split
  · exact ⟨h, by simp, nofun⟩
  by_cases hid : operation.id = id
  · obtain rfl := hid
    cases call.write with
    | refused => exact ⟨⟨h.memory.restored hlookup, h.file⟩, by simp [persist, lands], nofun⟩
    | late | done =>
      refine ⟨?_, by simp [persist, lands], by simp [persist, lands]⟩
      simp only [lands, ↓reduceIte, persist, foldl_cons, foldl_nil, expect]
      cases resolution with
      | applied => exact ⟨h.memory.settled hlookup, h.memory.settled hlookup⟩
      | notApplied => exact recorded_none _ _
  have hne : id ≠ operation.id := fun heq => hid heq.symm
  have hknows : Knows id expected (match resolution with
      | .applied => ledger.entries.insert operation.id { entry with phase := .applied }
      | .notApplied => ledger.entries.erase operation.id) := by
    cases resolution with
    | applied => exact h.memory.insert_ne hne
    | notApplied => exact h.memory.erase_ne hne
  cases call.write with
  | refused =>
    exact ⟨(h.persist hknows .refused).withEntries (hknows.insert_ne hne),
      by simp [persist, lands], nofun⟩
  | late =>
    refine ⟨?_, by simp [persist, lands], by simp [persist, lands]⟩
    simp only [lands, ↓reduceIte, persist, foldl_cons, foldl_nil, expect_resolved_ne hid]
    exact (h.persist hknows .late).withEntries (hknows.insert_ne hne)
  | done =>
    refine ⟨?_, by simp [persist, lands], by simp [persist, lands]⟩
    simp only [lands, ↓reduceIte, persist, foldl_cons, foldl_nil, expect_resolved_ne hid]
    exact h.persist hknows .done

/-! ## Opening the file -/

/-- Reading an entry adds it under the text of its id, and exchanges no other. -/
theorem readEntry_spec (h : readEntry entries id entry = .ok entries') :
    entries'.lookup (jsonText id) = some { entry with digest := jsonText entry.digest } ∧
      ∀ key value, entries.lookup key = some value → entries'.lookup key = some value := by
  replace h := of_check h
  obtain ⟨hnew, h⟩ := check_eq_ok.mp h
  obtain rfl := ok.inj h
  refine ⟨AList.lookup_insert _, fun key value hvalue => ?_⟩
  have hne : key ≠ jsonText id := by
    rintro rfl
    simp [hvalue] at hnew
  rw [AList.lookup_insert_ne hne, hvalue]

/-- Reading rows keeps what was read, and reads every row. -/
theorem readRows_spec {rows : List (Sigma fun _ : GoString => LedgerEntry)}
    (h : rows.foldlM (fun entries row => readEntry entries row.1 row.2) entries = .ok entries') :
    (∀ key value, entries.lookup key = some value → entries'.lookup key = some value) ∧
      ∀ row ∈ rows, entries'.lookup (jsonText row.1) =
        some { row.2 with digest := jsonText row.2.digest } := by
  induction rows generalizing entries with
  | nil =>
    obtain rfl := ok.inj h
    exact ⟨fun _ _ => id, nofun⟩
  | cons row rows ih =>
    obtain ⟨next, hnext, hrest⟩ := bind_eq_ok.mp h
    obtain ⟨hrow, hkeeps⟩ := readEntry_spec hnext
    obtain ⟨hkeeps', hrows⟩ := ih hrest
    refine ⟨fun key value hvalue => hkeeps' key value (hkeeps key value hvalue), ?_⟩
    intro other hother
    rcases mem_cons.mp hother with rfl | hother
    · exact hkeeps' _ _ hrow
    · exact hrows other hother

/-- An id that is UTF-8 is known after the file was opened. -/
theorem Recorded.reopen (hid : validString id) (h : Recorded id expected ledger) :
    Recorded id expected ledger.reopen := by
  unfold Ledger.reopen
  rcases hread : readEntries ledger.stored.file with e | entries
  · exact ⟨h.memory, h.file⟩
  refine ⟨fun e he => ?_, h.file⟩
  obtain ⟨entry, hentry, hdigest, hpending⟩ := h.file e he
  have hrow : ⟨id, entry⟩ ∈ ledger.stored.file.entries := AList.mem_lookup_iff.mp hentry
  have hlookup := (readRows_spec hread).2 _ hrow
  rw [(jsonText_eq_self_iff id).mpr hid] at hlookup
  refine ⟨_, hlookup, .inr ?_, hpending⟩
  rcases hdigest with hdigest | hdigest
  · rw [hdigest]
  · rw [hdigest, jsonText_jsonText]

/-! ## Runs -/

/-- The account of an id: the ledger knows what is expected, and each run began when nothing was. -/
structure Account.Recorded (id : GoString) (account : Account) : Prop where
  ledger : NodeLink.Recorded id (expectedAfter id account.events) account.ledger
  runs : ∀ before operation effect after,
    account.events = before ++ .ran operation effect :: after → operation.id = id →
      expectedAfter id before = none
  named : ∀ operation effect, .ran operation effect ∈ account.events →
    blank operation.id = false ∧ blank operation.digest = false

/-- What is expected after more events. -/
theorem expectedAfter_append (id : GoString) (before after : List Event) :
    expectedAfter id (before ++ after) = after.foldl (expect id) (expectedAfter id before) :=
  List.foldl_append

variable {account : Account}

/-- A call that has at most one event, and runs an operation only if nothing is expected of it. -/
theorem Account.Recorded.answered {α : Type} {answer : Answer α} (h : account.Recorded id)
    (hledger : NodeLink.Recorded id
      (answer.events.foldl (expect id) (expectedAfter id account.events)) answer.ledger)
    (hone : answer.events.length ≤ 1)
    (hruns : ∀ ran effect, .ran ran effect ∈ answer.events → ran.id = id →
      expectedAfter id account.events = none)
    (hnamed : ∀ ran effect, .ran ran effect ∈ answer.events →
      blank ran.id = false ∧ blank ran.digest = false) : (account.answered answer).Recorded id where
  ledger := by
    unfold Account.answered
    rw [expectedAfter_append]
    exact hledger
  runs := by
    intro before operation effect after heq hid
    change account.events ++ answer.events = _ at heq
    rcases List.append_eq_append_iff.mp heq with ⟨rest, hbefore, hevents⟩ | ⟨rest, hevents, hafter⟩
    · -- The run is one of the call's own events, and the first.
      have hrest : rest = [] := by
        rw [hevents, length_append, length_cons] at hone
        exact List.length_eq_zero_iff.mp (by omega)
      rw [hbefore, hrest, append_nil]
      refine hruns operation effect ?_ hid
      rw [hevents]
      exact mem_append_right rest mem_cons_self
    cases rest with
    | nil =>
      have hempty : before = account.events := by simpa using hevents.symm
      have hmem : .ran operation effect ∈ answer.events := by
        rw [nil_append] at hafter
        rw [← hafter]
        exact mem_cons_self
      rw [hempty]
      exact hruns operation effect hmem hid
    | cons event rest =>
      obtain ⟨rfl, -⟩ := cons.inj hafter
      exact h.runs before operation effect rest hevents hid
  named := by
    intro operation effect hran
    rcases mem_append.mp hran with hbefore | hnew
    · exact h.named operation effect hbefore
    · exact hnamed operation effect hnew

/-- Every step keeps the account of an id that is UTF-8. -/
theorem Account.Recorded.step (hid : validString id) {i : LedgerStep}
    {account' : Account} (hstep : Account.step i account = some account')
    (h : account.Recorded id) : account'.Recorded id := by
  cases i with
  | applyOnce operation call =>
    obtain rfl := some.inj hstep
    obtain ⟨hledger, hone, hruns⟩ := applyOnce_spec operation call h.ledger
    exact h.answered hledger hone hruns fun _ _ => named_of_ran
  | resolve operation resolution call =>
    obtain rfl := some.inj hstep
    obtain ⟨hledger, hone, hruns⟩ := resolve_spec operation resolution call h.ledger
    exact h.answered hledger hone (fun ran effect hran => absurd hran (hruns ran effect))
      fun ran effect hran => absurd hran (hruns ran effect)
  | reopen =>
    obtain rfl := some.inj hstep
    exact ⟨h.ledger.reopen hid, h.runs, h.named⟩

/-- The operation is resolved as not applied by one of the events. -/
def ResolvedNotApplied (id : GoString) (events : List Event) : Prop :=
  ∃ operation, operation.id = id ∧ .resolved operation .notApplied ∈ events

/-- What is expected of an id stays expected until it is resolved as not applied: it does not run in
between. It stays pending until it is resolved. -/
theorem Account.Recorded.middle (h : account.Recorded id) {before middle after : List Event}
    {e : Expected} (hevents : account.events = before ++ (middle ++ after))
    (he : expectedAfter id before = some e) (hnot : ¬ ResolvedNotApplied id middle) :
    ∃ e', expectedAfter id (before ++ middle) = some e' ∧ e'.digest = e.digest ∧
      ((∀ operation resolution, .resolved operation resolution ∈ middle → operation.id ≠ id) →
        e'.pending = e.pending) := by
  induction middle generalizing before e with
  | nil => exact ⟨e, by rwa [append_nil], rfl, fun _ => rfl⟩
  | cons event middle ih =>
    have hnext : ∃ e1, expectedAfter id (before ++ [event]) = some e1 ∧ e1.digest = e.digest ∧
        ((∀ operation resolution, event = .resolved operation resolution → operation.id ≠ id) →
          e1.pending = e.pending) := by
      rw [expectedAfter_append, he, foldl_cons, foldl_nil]
      cases event with
      | ran operation effect =>
        have hne : operation.id ≠ id := by
          intro hid
          have hnone := h.runs before operation effect (middle ++ after) hevents hid
          rw [he] at hnone
          cases hnone
        exact ⟨e, expect_ran_ne hne, rfl, fun _ => rfl⟩
      | resolved operation resolution =>
        by_cases hid : operation.id = id
        · cases resolution with
          | applied =>
            exact ⟨{ e with pending := false }, if_pos hid, rfl,
              fun hunresolved => absurd hid (hunresolved operation .applied rfl)⟩
          | notApplied => exact absurd ⟨operation, hid, mem_cons_self⟩ hnot
        · exact ⟨e, expect_resolved_ne hid, rfl, fun _ => rfl⟩
    obtain ⟨e1, he1, hdigest1, hpending1⟩ := hnext
    have hrest : ¬ ResolvedNotApplied id middle := by
      rintro ⟨operation, hid, hmem⟩
      exact hnot ⟨operation, hid, mem_cons_of_mem event hmem⟩
    have hevents' : account.events = (before ++ [event]) ++ (middle ++ after) := by
      rw [hevents]
      simp
    obtain ⟨e', he', hdigest, hpending⟩ := ih hevents' he1 hrest
    refine ⟨e', ?_, hdigest.trans hdigest1, fun hunresolved => ?_⟩
    · rwa [append_assoc, List.singleton_append] at he'
    have hfirst : e1.pending = e.pending := by
      refine hpending1 fun operation resolution heq => ?_
      rw [heq] at hunresolved
      exact hunresolved operation resolution mem_cons_self
    refine (hpending fun operation resolution hmem => ?_).trans hfirst
    exact hunresolved operation resolution (mem_cons_of_mem event hmem)

end Bria.NodeLink
