import Bria.CoordinatorBundle.Bundle
import Bria.MessageJournal.Validate
import Mathlib.Data.List.Perm.Basic

/-!
# Bundles of a quiescent journal

The journal validates its document session by session, and the bundle validates the records of all
sessions together. A document without leases and open recoveries is bundled as it is. What the journal
admits and the bundle does not are sessions without records, ids that two sessions share, superseded
outputs, and payloads of more than a mebibyte (`quiescent_bundled_iff`). Everything else that the
bundle checks follows from what the journal has checked: the numbers of a session are all numbers up to
its mark, each once (`places_perm`).
-/

namespace Bria.CoordinatorBundle

open Go Domain MessageJournal List

/-- The journals of a document's bundle. -/
def journalsOf (document : Document) : List JournalSession :=
  document.sessions.map fun session => {
    sessionID := session.sessionID
    nextSequence := session.nextSequence
    recoveryOpen := session.recovery.any fun recovery => recovery.phase = .opened }

/-- The inputs of a document's bundle. -/
def inputsOf (document : Document) : List Input :=
  document.sessions.flatMap fun session => session.inputs.map (inputFromRecord session.sessionID)

/-- The outputs of a document's bundle. -/
def outputsOf (document : Document) : List Output :=
  document.sessions.flatMap fun session => session.outputs.map (outputFromRecord session.sessionID)

/-- No record has a lease, and no recovery is open. -/
structure Quiescent (document : Document) : Prop where
  inputs : ∀ session ∈ document.sessions, ∀ r ∈ session.inputs, r.lease = {}
  outputs : ∀ session ∈ document.sessions, ∀ r ∈ session.outputs, r.lease = {}
  recovery : ∀ session ∈ document.sessions, ∀ recovery, session.recovery = some recovery →
    recovery.phase ≠ .opened

/-- What the bundle asks of a journal beyond what the journal does. -/
structure Bundleable (document : Document) : Prop where
  records : ∀ session ∈ document.sessions, session.nextSequence ≠ 0
  messageIDs : (document.sessions.flatMap fun session =>
    session.inputs.map (·.messageID)).Nodup
  operationIDs : (document.sessions.flatMap fun session =>
    session.outputs.map (·.operationID)).Nodup
  current : ∀ session ∈ document.sessions, ∀ r ∈ session.outputs, r.phase ≠ .superseded
  inputs : ∀ session ∈ document.sessions, ∀ r ∈ session.inputs, r.payload.length ≤ 0x100000
  outputs : ∀ session ∈ document.sessions, ∀ r ∈ session.outputs, r.payload.length ≤ 0x100000

variable {document : Document} {limits : Limits} {sessions : Sessions} {id : GoString} {last : Nat}

/-! ## Marks -/

/-- The mark of a session is that of its journal. -/
theorem lookup_marks {journals : List JournalSession}
    (hdistinct : journals.Pairwise fun a b => a.sessionID ≠ b.sessionID) :
    (marks journals).lookup id = some last ↔
      ∃ journal ∈ journals, journal.sessionID = id ∧ journal.nextSequence = last := by
  let entries : List (Σ _ : GoString, Nat) :=
    journals.map fun journal => ⟨journal.sessionID, journal.nextSequence⟩
  have hmarks : marks journals = entries.foldl (fun high e => high.insert e.1 e.2) ∅ := by
    rw [foldl_map]
    rfl
  have hkeys : entries.NodupKeys := by
    rw [List.NodupKeys, List.keys, map_map]
    exact pairwise_map.mpr hdistinct
  have hmem : ∀ journal ∈ journals,
      (marks journals).lookup journal.sessionID = some journal.nextSequence := by
    intro journal hjournal
    rw [hmarks]
    exact Map.lookup_foldl_insert hkeys (mem_map.mpr ⟨journal, hjournal, rfl⟩)
  constructor
  · intro h
    by_cases hid : id ∈ entries.keys
    · obtain ⟨e, he, rfl⟩ := mem_map.mp hid
      obtain ⟨journal, hjournal, rfl⟩ := mem_map.mp he
      have hsame := (hmem journal hjournal).symm.trans h
      exact ⟨journal, hjournal, rfl, some.inj hsame⟩
    rw [hmarks, Map.lookup_foldl_insert_of_notMem hid] at h
    cases h
  rintro ⟨journal, hjournal, rfl, rfl⟩
  exact hmem journal hjournal

/-- A session that the document has is marked. -/
theorem lookup_marks_journalsOf (hids : (document.sessions.map (·.sessionID)).Nodup) :
    (marks (journalsOf document)).lookup id = some last ↔
      ∃ session ∈ document.sessions, session.sessionID = id ∧ session.nextSequence = last := by
  have hdistinct : (journalsOf document).Pairwise fun a b => a.sessionID ≠ b.sessionID :=
    pairwise_map.mpr (pairwise_map.mp hids)
  rw [lookup_marks hdistinct]
  simp only [journalsOf, mem_map, exists_exists_and_eq_and]

/-! ## Numbers -/

/-- All numbers up to the marks. -/
def numbered (document : Document) : List (GoString × Nat) :=
  document.sessions.flatMap fun session =>
    (List.range' 1 session.nextSequence).map fun number => (session.sessionID, number)

/-- The numbers of the records are those. -/
theorem places_perm (hvalid : document.Valid limits) :
    (places (inputsOf document) (outputsOf document)).Perm (numbered document) := by
  have hsplit : places (inputsOf document) (outputsOf document) =
      (document.sessions.flatMap fun session =>
        (session.inputs.map (·.sequence)).map fun number => (session.sessionID, number)) ++
      (document.sessions.flatMap fun session =>
        (session.outputs.map (·.sequence)).map fun number => (session.sessionID, number)) := by
    simp only [places, records, inputsOf, outputsOf, map_append, map_flatMap, map_map]
    rfl
  rw [hsplit]
  refine (flatMap_append_perm _ _ _).trans (List.Perm.flatMap_left _ fun session hsession => ?_)
  rw [← map_append]
  exact (hvalid.sessions session hsession).sequences.map _

/-- No two of them are the same. -/
theorem numbered_nodup (hids : (document.sessions.map (·.sessionID)).Nodup) :
    (numbered document).Nodup := by
  refine nodup_flatMap.mpr ⟨fun session _ => ?_, ?_⟩
  · exact .map (fun a b h => (Prod.mk.inj h).2) nodup_range'
  refine (pairwise_map.mp hids).imp fun {a b} hne => ?_
  intro place ha hb
  obtain ⟨_, -, rfl⟩ := mem_map.mp ha
  obtain ⟨_, -, h⟩ := mem_map.mp hb
  exact hne (Prod.mk.inj h).1.symm

/-- What only one of the rows has, all rows together have. -/
theorem flatMap_of_unique {α β κ : Type} [DecidableEq κ] {key : α → κ} {l : List α} {a : α}
    (hnodup : (l.map key).Nodup) (ha : a ∈ l) (f : α → List β) :
    (l.flatMap fun b => if key b = key a then f b else []) = f a := by
  induction l with
  | nil => cases ha
  | cons b l ih =>
    obtain ⟨hb, hnodup⟩ := nodup_cons.mp hnodup
    rw [flatMap_cons]
    rcases mem_cons.mp ha with rfl | ha
    · have hrest : (l.flatMap fun b => if key b = key a then f b else []) = [] := by
        refine flatMap_eq_nil_iff.mpr fun b hmem => if_neg fun h => hb ?_
        exact h ▸ mem_map_of_mem hmem
      rw [if_pos rfl, hrest, append_nil]
    have hne : key b ≠ key a := fun h => hb (h ▸ mem_map_of_mem ha)
    rw [if_neg hne, nil_append, ih hnodup ha]

theorem filter_numbered (hids : (document.sessions.map (·.sessionID)).Nodup)
    {session : SessionRecord} (hsession : session ∈ document.sessions) :
    ((numbered document).filter fun place => place.1 = session.sessionID) =
      (List.range' 1 session.nextSequence).map fun number => (session.sessionID, number) := by
  rw [numbered, filter_flatMap,
    ← flatMap_of_unique hids hsession fun s =>
      (List.range' 1 s.nextSequence).map fun number => (s.sessionID, number)]
  refine congrArg (fun f => document.sessions.flatMap f) (funext fun s => ?_)
  by_cases h : s.sessionID = session.sessionID <;> simp [h, filter_map, Function.comp_def]

/-! ## Bundles -/

/-- A record without a lease is none that the bundle takes for leased. -/
theorem leased_leaseFromRecord {lease : LeaseRecord} (h : lease = {}) :
    leased (leaseFromRecord lease) = false := by
  subst h
  rfl

theorem not_blank_of_opaqueID {maxBytes : Nat} (h : OpaqueID id maxBytes) : blank id = false := by
  obtain ⟨hne, htrim, -⟩ := h
  rw [blank, htrim]
  exact beq_false_of_ne hne

/-- The number of a record that the journal admits is not zero. -/
theorem sequence_ne_zero {l : List Nat} (h : (0 :: l).Pairwise (· < ·)) {n : Nat} (hn : n ∈ l) :
    n ≠ 0 :=
  Nat.ne_of_gt ((pairwise_cons.mp h).1 n hn)

theorem validOutputPhase_iff (phase : OutputPhase) :
    validOutputPhase (some phase) ↔ phase ≠ .superseded := by
  cases phase <;> simp [validOutputPhase]

/-- The records of a quiescent document pass by themselves if no output is superseded and no payload
is too long. -/
theorem records_valid_iff (hvalid : document.Valid limits) (hquiet : Quiescent document) :
    (∀ record ∈ records (inputsOf document) (outputsOf document),
        record.Valid (marks (journalsOf document))) ↔
      (∀ session ∈ document.sessions, ∀ r ∈ session.outputs, r.phase ≠ .superseded) ∧
        (∀ session ∈ document.sessions, ∀ r ∈ session.inputs, r.payload.length ≤ 0x100000) ∧
        ∀ session ∈ document.sessions, ∀ r ∈ session.outputs, r.payload.length ≤ 0x100000 := by
  have hmarked : ∀ session ∈ document.sessions,
      ((marks (journalsOf document)).lookup session.sessionID).isSome := by
    intro session hsession
    rw [(lookup_marks_journalsOf hvalid.sessionIDs).mpr ⟨session, hsession, rfl, rfl⟩]
    rfl
  have hinput : ∀ session ∈ document.sessions, ∀ r ∈ session.inputs,
      ((inputRecord (inputFromRecord session.sessionID r)).Valid (marks (journalsOf document)) ↔
        r.payload.length ≤ 0x100000) := by
    intro session hsession r hr
    have hrow := hvalid.sessions session hsession
    refine ⟨fun h => h.short, fun hshort => ⟨?_, ?_, hshort, ?_, rfl, hmarked session hsession⟩⟩
    · exact not_blank_of_opaqueID (hrow.inputs r hr).messageID
    · exact sequence_ne_zero hrow.inputOrder (mem_map_of_mem hr)
    · exact leased_leaseFromRecord (hquiet.inputs session hsession r hr)
  have houtput : ∀ session ∈ document.sessions, ∀ r ∈ session.outputs,
      ((outputRecord (outputFromRecord session.sessionID r)).Valid (marks (journalsOf document)) ↔
        r.phase ≠ .superseded ∧ r.payload.length ≤ 0x100000) := by
    intro session hsession r hr
    have hrow := hvalid.sessions session hsession
    constructor
    · exact fun h => ⟨(validOutputPhase_iff r.phase).mp h.phase, h.short⟩
    rintro ⟨hphase, hshort⟩
    refine ⟨?_, ?_, hshort, ?_, (validOutputPhase_iff r.phase).mpr hphase, hmarked session hsession⟩
    · exact not_blank_of_opaqueID (hrow.outputs r hr).operationID
    · exact sequence_ne_zero hrow.outputOrder (mem_map_of_mem hr)
    · exact leased_leaseFromRecord (hquiet.outputs session hsession r hr)
  constructor
  · intro h
    have hout : ∀ session ∈ document.sessions, ∀ r ∈ session.outputs,
        r.phase ≠ .superseded ∧ r.payload.length ≤ 0x100000 := by
      intro session hsession r hr
      refine (houtput session hsession r hr).mp (h _ (mem_append_right _ ?_))
      exact mem_map_of_mem (mem_flatMap.mpr ⟨session, hsession, mem_map_of_mem hr⟩)
    refine ⟨fun s hs r hr => (hout s hs r hr).1, fun session hsession r hr => ?_,
      fun s hs r hr => (hout s hs r hr).2⟩
    refine (hinput session hsession r hr).mp (h _ (mem_append_left _ ?_))
    exact mem_map_of_mem (mem_flatMap.mpr ⟨session, hsession, mem_map_of_mem hr⟩)
  rintro ⟨hcurrent, hinputs, houtputs⟩ record hrecord
  rcases mem_append.mp hrecord with hrecord | hrecord
  · obtain ⟨input, hmem, rfl⟩ := mem_map.mp hrecord
    obtain ⟨session, hsession, hmem⟩ := mem_flatMap.mp hmem
    obtain ⟨r, hr, rfl⟩ := mem_map.mp hmem
    exact (hinput session hsession r hr).mpr (hinputs session hsession r hr)
  obtain ⟨output, hmem, rfl⟩ := mem_map.mp hrecord
  obtain ⟨session, hsession, hmem⟩ := mem_flatMap.mp hmem
  obtain ⟨r, hr, rfl⟩ := mem_map.mp hmem
  exact (houtput session hsession r hr).mpr
    ⟨hcurrent session hsession r hr, houtputs session hsession r hr⟩

/-- For every document that the journal admits, without leases and open recoveries, and whose sessions
the bundle has: the bundle of it passes `validateJournals` exactly if it is bundleable. -/
theorem quiescent_bundled_iff (hvalid : validateDocument document limits = .ok ())
    (hquiet : Quiescent document)
    (hsessions : ∀ session ∈ document.sessions, (sessions.lookup session.sessionID).isSome) :
    validateJournals (journalsOf document) (inputsOf document) (outputsOf document) sessions =
      .ok () ↔ Bundleable document := by
  have hvalid := validateDocument_ok_iff.mp hvalid
  have hperm := places_perm hvalid
  have hmessageIDs : (inputsOf document).map (·.messageID) =
      document.sessions.flatMap fun session => session.inputs.map (·.messageID) := by
    simp only [inputsOf, map_flatMap, map_map]
    rfl
  have hoperationIDs : (outputsOf document).map (·.operationID) =
      document.sessions.flatMap fun session => session.outputs.map (·.operationID) := by
    simp only [outputsOf, map_flatMap, map_map]
    rfl
  rw [validateJournals_ok_iff]
  constructor
  · rintro ⟨hjournals, -, hrecords⟩
    obtain ⟨hcurrent, hinputs, houtputs⟩ := (records_valid_iff hvalid hquiet).mp hrecords.records
    refine ⟨fun session hsession => ?_, hmessageIDs ▸ hrecords.messageIDs,
      hoperationIDs ▸ hrecords.operationIDs, hcurrent, hinputs, houtputs⟩
    exact (hjournals _ (mem_map_of_mem hsession)).positive
  rintro ⟨hnonempty, hmessages, hoperations, hcurrent, hinputs, houtputs⟩
  refine ⟨?_, pairwise_map.mpr (pairwise_map.mp hvalid.sessionIDs),
    (records_valid_iff hvalid hquiet).mpr ⟨hcurrent, hinputs, houtputs⟩,
    hmessageIDs ▸ hmessages, hoperationIDs ▸ hoperations,
    hperm.nodup_iff.mpr (numbered_nodup hvalid.sessionIDs), ?_⟩
  · intro journal hjournal
    obtain ⟨session, hsession, rfl⟩ := mem_map.mp hjournal
    refine ⟨hnonempty session hsession, ?_, hsessions session hsession⟩
    cases hrecovery : session.recovery with
    | none => rfl
    | some recovery => simp [hquiet.recovery session hsession recovery hrecovery]
  -- The numbers of a session are all up to its mark.
  intro id last hlookup
  obtain ⟨session, hsession, rfl, rfl⟩ := (lookup_marks_journalsOf hvalid.sessionIDs).mp hlookup
  refine ⟨?_, fun number hlow hhigh => hperm.mem_iff.mpr ?_⟩
  · rw [(hperm.filter _).length_eq, filter_numbered hvalid.sessionIDs hsession]
    simp
  refine mem_flatMap.mpr ⟨session, hsession, mem_map.mpr ⟨number, ?_, rfl⟩⟩
  rw [mem_range'_1]
  omega

/-- A document with one session, which has one output. -/
def sampleDocument (phase : OutputPhase) : Document where
  version := formatVersion
  sessions := [{
    sessionID := ofText "s", nextSequence := 1
    outputs := [{
      operationID := ofText "o", sequence := 1, kind := ofText "status", payload := [],
      phase }] }]

/-- The document has no leases and no recoveries. -/
theorem sampleDocument_quiescent (phase : OutputPhase) : Quiescent (sampleDocument phase) where
  inputs session hsession r hr := by
    obtain rfl := mem_singleton.mp hsession
    cases hr
  outputs session hsession r hr := by
    obtain rfl := mem_singleton.mp hsession
    obtain rfl := mem_singleton.mp hr
    rfl
  recovery session hsession recovery hrecovery := by
    obtain rfl := mem_singleton.mp hsession
    cases hrecovery

/-- The sessions of a bundle with one session. -/
def sampleSessions : Sessions :=
  (∅ : Sessions).insert (ofText "s") {
    id := ofText "s", intentID := ofText "i", computerID := ofText "c", provider := .codex,
    workdir := ofText "/w", status := .ready, createdAt := ⟨1⟩, stateChangedAt := ⟨1⟩,
    lifetime := lifetimeNever }

/-- A pending output is bundled. -/
theorem pending_output_bundled :
    validateDocument (sampleDocument .pending) defaultLimits = .ok () ∧
      validateJournals (journalsOf (sampleDocument .pending)) (inputsOf (sampleDocument .pending))
        (outputsOf (sampleDocument .pending)) sampleSessions = .ok () := by
  have hvalid : validateDocument (sampleDocument .pending) defaultLimits = .ok () := by decide +kernel
  refine ⟨hvalid, (quiescent_bundled_iff hvalid (sampleDocument_quiescent .pending) ?_).mpr ?_⟩
  · intro session hsession
    obtain rfl := mem_singleton.mp hsession
    rfl
  refine ⟨?_, by decide, by decide, ?_, ?_, ?_⟩ <;> intro session hsession <;>
    obtain rfl := mem_singleton.mp hsession
  · exact nofun
  · intro r hr
    obtain rfl := mem_singleton.mp hr
    exact nofun
  · exact nofun
  intro r hr
  obtain rfl := mem_singleton.mp hr
  exact Nat.zero_le _

/-- A superseded output is not: `SupersedePendingOutputs` leaves a journal that cannot be bundled. -/
theorem superseded_output_refused :
    validateDocument (sampleDocument .superseded) defaultLimits = .ok () ∧
      Quiescent (sampleDocument .superseded) ∧
      validateJournals (journalsOf (sampleDocument .superseded))
        (inputsOf (sampleDocument .superseded)) (outputsOf (sampleDocument .superseded))
        sampleSessions = .error (invalid "output phase") :=
  ⟨by decide +kernel, sampleDocument_quiescent .superseded, by decide +kernel⟩

end Bria.CoordinatorBundle
