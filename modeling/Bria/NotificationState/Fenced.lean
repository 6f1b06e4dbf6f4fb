import Bria.NotificationState.Store

/-!
# Parts are fenced before they are sent

A state that is written passes `validateFileState`, and a state that passes it comes back from the
file as it was: its keys and texts are valid UTF-8, its sums are hexadecimal, and its plans are not
empty. So the file can always be read, and what a call does to the file is what its action does to
the state. One action after another keeps the plans and the confirmed parts, and only a release
removes a part (`Evolves`). A claim is granted only for a part that is not there, and leaves it
there; so between two grants for one part there is a release of it (`parts_fenced`).
-/

namespace Bria.NotificationState

open Go

variable {enc : Encoding} {faults : Faults} {state next : FileState} {file : File} {u : Unit}
  {α : Type}
variable {operationID partID : GoString}

/-! ## The trip through the file -/

/-- An id of a part is valid UTF-8: after the operation it is ASCII. -/
theorem validString_of_binding (h : validatePartBinding operationID partID = .ok ()) :
    validString partID := by
  obtain ⟨hstart, h⟩ := check_eq_ok.mp h
  simp only [refuse_eq_ok, or_eq_false_iff, not_eq_false', decide_eq_false_iff_not,
    isSome_eq_false_iff, isNone_iff_eq_none, errorOf_eq_none] at hstart
  obtain ⟨⟨⟨hoperation, -⟩, -⟩, hstem⟩ := hstart
  have hvalid : validString operationID := by
    simp only [validateOperation, refuse_eq_ok, or_eq_false_iff, not_eq_false'] at hoperation
    exact hoperation.2
  obtain ⟨rest, rfl⟩ := List.isPrefixOf_iff_prefix.mp hstem
  simp only [partNumbers, hstem, if_true, List.drop_left] at h
  split at h
  · cases h
  rename_i index total hcut
  split at h
  · rename_i part count hindex htotal
    have hindex := (filter_eq_some_iff.mp hindex).1
    have htotal := (filter_eq_some_iff.mp htotal).1
    rw [cut_eq_some hcut]
    have hstart : validString (partStem operationID) :=
      (validString_append_iff hvalid).mpr (by decide)
    refine (validString_append_iff hstart).mpr (validString_of_ascii ?_)
    intro b hb
    rcases mem_append.mp hb with hb | hb
    · rcases mem_append.mp hb with hb | hb
      · exact ascii_of_atoi hindex b hb
      · exact ascii_of_all (by decide) hb
    · exact ascii_of_atoi htotal b hb
  · cases h

theorem validString_hexText (s : GoString) : validString (hexText s) :=
  validString_of_ascii (ascii_of_hexDecodes (hexDecodes_hexText s))

/-- What the loop over the parts of an operation checks of each of them. -/
theorem scanParts_ok {entries : List (Σ _ : GoString, StoredPart)} {total total' : GoString}
    (h : entries.foldlM (scanPart state operationID) total = .ok total') :
    ∀ entry ∈ entries, validateStoredBinding state operationID entry.1 false = .ok () ∧
      validPart entry.2 := by
  induction entries generalizing total with
  | nil => exact nofun
  | cons entry entries ih =>
    obtain ⟨_, hentry, hrest⟩ := bind_eq_ok.mp h
    obtain ⟨hentry, -⟩ := check_eq_ok.mp hentry
    simp only [refuse_eq_ok, or_eq_false_iff, isSome_eq_false_iff,
      isNone_iff_eq_none, errorOf_eq_none, not_eq_false'] at hentry
    exact forall_mem_cons.mpr ⟨⟨hentry.1.1, hentry.2⟩, ih hrest⟩

variable {part : StoredPart}

theorem reencode_of_validPart (h : validPart part) : part.reencode = part := by
  obtain ⟨deliveryState, messageID⟩ := part
  cases deliveryState <;> first | rfl | cases h

theorem map_keys_eq_self {V : Type} {m : Map GoString V}
    (h : ∀ k v, m.lookup k = some v → jsonText k = k) : m.keys.map jsonText = m.keys := by
  conv_rhs => rw [← List.map_id m.keys]
  refine List.map_congr_left fun k hk => ?_
  obtain ⟨entry, hmem, rfl⟩ := mem_map.mp hk
  exact h entry.1 entry.2 (mem_entries.mp hmem)

/-- The parts of a valid operation come back as they are. -/
theorem parts_reencode {parts : Parts} (h : validateParts state ⟨operationID, parts⟩ = .ok ()) :
    jsonText operationID = operationID ∧ (parts.keys.map jsonText) = parts.keys ∧
      parts.rekey jsonText StoredPart.reencode = parts := by
  obtain ⟨hoperation, h⟩ := check_eq_ok.mp h
  simp only [refuse_eq_ok, isSome_eq_false_iff, isNone_iff_eq_none, errorOf_eq_none,
    validateOperation, or_eq_false_iff, not_eq_false'] at hoperation
  obtain ⟨_, hscan, -⟩ := bind_eq_ok.mp h
  have hentry : ∀ k v, parts.lookup k = some v → jsonText k = k ∧ v.reencode = v := by
    intro k v hlookup
    obtain ⟨hbinding, hpart⟩ := scanParts_ok hscan ⟨k, v⟩ (mem_entries.mpr hlookup)
    obtain ⟨hbinding, -⟩ := check_eq_ok.mp hbinding
    exact ⟨(jsonText_eq_self_iff _).mpr (validString_of_binding hbinding),
      reencode_of_validPart hpart⟩
  exact ⟨(jsonText_eq_self_iff _).mpr hoperation.2,
    map_keys_eq_self fun k v hlookup => (hentry k v hlookup).1, Map.rekey_eq_self hentry⟩

theorem plan_reencode {plan : SavedPlan} (h : validatePlan enc ⟨operationID, plan⟩ = .ok ()) :
    jsonText operationID = operationID ∧ plan.reencode = plan := by
  simp only [validatePlan, refuse_eq_ok, or_eq_false_iff, isSome_eq_false_iff,
    isNone_iff_eq_none, errorOf_eq_none] at h
  obtain ⟨hoperation, hplan⟩ := h
  simp only [validateOperation, refuse_eq_ok, or_eq_false_iff, not_eq_false'] at hoperation
  obtain ⟨hplan, hpages⟩ := check_eq_ok.mp hplan
  simp only [refuse_eq_ok, or_eq_false_iff, isSome_eq_false_iff,
    isNone_iff_eq_none, errorOf_eq_none, decide_eq_false_iff_not, not_not] at hplan
  obtain ⟨⟨⟨hidentity, -⟩, -⟩, hchecksum⟩ := hplan
  have hhash := of_check hidentity
  simp only [refuse_eq_ok, not_eq_false'] at hhash
  refine ⟨(jsonText_eq_self_iff _).mpr hoperation.2, ?_⟩
  have hhash : jsonText plan.inputHash = plan.inputHash :=
    (jsonText_eq_self_iff _).mpr (validString_of_ascii (ascii_of_hexDecodes hhash))
  have hchecksum : jsonText plan.checksum = plan.checksum := by
    rw [jsonText_eq_self_iff, hchecksum]
    exact validString_hexText _
  have hpages : plan.pages.map jsonText = plan.pages := by
    conv_rhs => rw [← List.map_id plan.pages]
    refine List.map_congr_left fun page hpage => (jsonText_eq_self_iff _).mpr ?_
    have hvalid := forM_eq_ok.mp hpages page hpage
    simp only [validatePage, refuse_eq_ok, or_eq_false_iff, not_eq_false'] at hvalid
    exact hvalid.1.1
  rw [SavedPlan.reencode, hhash, hchecksum, hpages]

/-- A valid state whose plans are not an empty object comes back as it is. -/
theorem decoded_of_valid (h : validateFileState enc state = .ok ()) (hplans : state.plans ≠ some ∅) :
    state.decoded = some state := by
  obtain ⟨hchecksum, h⟩ := check_eq_ok.mp h
  obtain ⟨hversion, h⟩ := check_eq_ok.mp h
  obtain ⟨hoperations, hsaved⟩ := check_eq_ok.mp h
  have hparts (operationID : GoString) (parts : Parts)
      (hlookup : state.operations.lookup operationID = some parts) :=
    parts_reencode (Map.forM_entries_eq_ok.mp hoperations operationID parts hlookup)
  have hplan (operationID : GoString) (plan : SavedPlan)
      (hlookup : (state.plans.getD ∅).lookup operationID = some plan) :=
    plan_reencode (Map.forM_entries_eq_ok.mp hsaved operationID plan hlookup)
  -- No keys are merged.
  have hkeys : (state.keys.all fun keys => (keys.map jsonText).Nodup) := by
    have hsame {V : Type} (m : Map GoString V)
        (hm : ∀ k v, m.lookup k = some v → jsonText k = k) : (m.keys.map jsonText).Nodup := by
      rw [map_keys_eq_self hm]
      exact m.keys_nodup
    simp only [all_eq_true, decide_eq_true_eq, FileState.keys, mem_append, mem_cons,
      not_mem_nil, or_false, mem_map]
    rintro keys ((rfl | rfl) | ⟨entry, hentry, rfl⟩)
    · exact hsame _ fun k v hlookup => (hparts k v hlookup).1
    · exact hsame _ fun k v hlookup => (hplan k v hlookup).1
    rw [(hparts entry.1 entry.2 (mem_entries.mp hentry)).2.1]
    exact entry.2.keys_nodup
  have hsum : jsonText state.checksum = state.checksum := by
    simp only [refuse_eq_ok, or_eq_false_iff, and_eq_false_iff, decide_eq_false_iff_not,
      not_not] at hchecksum hversion
    rw [jsonText_eq_self_iff]
    rcases hversion.1.1 with hone | htwo
    · rw [hchecksum.1.resolve_left (not_not.mpr hone)]
      rfl
    rw [hchecksum.2.resolve_left (not_not.mpr htwo)]
    exact validString_hexText _
  have hnonempty : state.plans.filter (·.entries ≠ []) = state.plans := by
    rcases hcase : state.plans with _ | plans
    · rfl
    have hentries : plans.entries ≠ [] := fun hnil =>
      hplans (hcase.trans (congrArg _ (AList.ext hnil)))
    simp [hentries]
  have hreencode : state.reencode = state := by
    have hstored : (state.plans.map fun plans => plans.rekey jsonText SavedPlan.reencode) =
        state.plans := by
      cases hcase : state.plans with
      | none => rfl
      | some plans =>
        rw [hcase] at hplan
        exact congrArg some (Map.rekey_eq_self hplan)
    rw [FileState.reencode, hsum, hnonempty, hstored,
      Map.rekey_eq_self fun k v hlookup => ⟨(hparts k v hlookup).1, (hparts k v hlookup).2.2⟩]
  rw [FileState.decoded, if_pos hkeys, hreencode]

/-- The file is read as the state, whose plans are not an empty object. A store never writes such an
object: it would not be read again. -/
structure Holds (enc : Encoding) (file : File) (state : FileState) : Prop where
  reads : readPartReceiptState enc file = .ok state
  plans : state.plans ≠ some ∅

/-- What has been written is read. -/
theorem holds_of_valid (h : validateFileState enc state = .ok ()) (hplans : state.plans ≠ some ∅) :
    Holds enc (some state) state where
  reads := by
    simp only [readPartReceiptState, decoded_of_valid h hplans, errorOf_eq_none.mpr h]
    rfl
  plans := hplans

/-! ## What a call does to the state -/

/-- A call that releases the part. -/
def Call.releases (operationID partID : GoString) (call : Call) : Prop :=
  call = .releasePart operationID partID ∨ call = .resolveUnknownForRetry operationID partID

/-- Plans and confirmed parts stay. -/
structure Retains (state next : FileState) : Prop where
  plans : ∀ operationID plan, state.plan operationID = some plan → next.plan operationID = some plan
  confirmed : ∀ operationID partID messageID,
    (state.parts operationID).lookup partID = some ⟨.confirmed, messageID⟩ →
    (next.parts operationID).lookup partID = some ⟨.confirmed, messageID⟩

/-- What a call does to the state: a part is removed only if it is released. -/
structure Evolves (call : Call) (state next : FileState) : Prop extends Retains state next where
  nonempty : state.plans ≠ some ∅ → next.plans ≠ some ∅
  fenced : ∀ operationID partID, ((state.parts operationID).lookup partID).isSome →
    ((next.parts operationID).lookup partID).isSome ∨ call.releases operationID partID

theorem Evolves.refl (call : Call) (state : FileState) : Evolves call state state where
  plans _ _ h := h
  nonempty h := h
  confirmed _ _ _ h := h
  fenced _ _ h := .inl h

variable {call : Call}

/-- The checksum is not looked at. -/
theorem Evolves.sealed (h : Evolves call state next) : Evolves call state (next.sealed enc) := by
  unfold FileState.sealed
  split
  · exact ⟨⟨h.plans, h.confirmed⟩, h.nonempty, h.fenced⟩
  · exact h

/-- The parts of an operation after those of one have been set. -/
theorem parts_setParts (state : FileState) (operationID other : GoString) (parts : Parts) :
    (state.setParts operationID parts).parts other =
      if other = operationID then parts else state.parts other := by
  simp only [FileState.setParts, FileState.parts, lookup_insert]
  split <;> rfl

theorem evolves_insert
    (h : ∀ messageID, (state.parts operationID).lookup partID = some ⟨.confirmed, messageID⟩ →
      part = ⟨.confirmed, messageID⟩) :
    Evolves call state
      (state.setParts operationID ((state.parts operationID).insert partID part)) where
  plans _ _ hplan := hplan
  nonempty hplans := hplans
  confirmed other otherPart messageID hconfirmed := by
    rw [parts_setParts]
    split
    · rename_i heq
      subst heq
      rw [lookup_insert]
      split
      · rename_i heq
        subst heq
        rw [h messageID hconfirmed]
      · exact hconfirmed
    · exact hconfirmed
  fenced other otherPart hpart := by
    rw [parts_setParts]
    refine .inl ?_
    split
    · rename_i heq
      subst heq
      rw [lookup_insert]
      split
      · rfl
      · exact hpart
    · exact hpart

theorem evolves_erase (hcall : call.releases operationID partID)
    (h : ∀ messageID, (state.parts operationID).lookup partID ≠ some ⟨.confirmed, messageID⟩) :
    Evolves call state (state.setParts operationID ((state.parts operationID).erase partID)) where
  plans _ _ hplan := hplan
  nonempty hplans := hplans
  confirmed other otherPart messageID hconfirmed := by
    rw [parts_setParts]
    split
    · rename_i heq
      subst heq
      rw [lookup_erase, if_neg]
      · exact hconfirmed
      rintro rfl
      exact h messageID hconfirmed
    · exact hconfirmed
  fenced other otherPart hpart := by
    rw [parts_setParts]
    split
    · rename_i heq
      subst heq
      rw [lookup_erase]
      split
      · rename_i heq
        subst heq
        exact .inr hcall
      · exact .inl hpart
    · exact .inl hpart

theorem createPlan_evolves {inputHash : GoString} {richPages legacyPages : List GoString} {plan : Plan}
    (h : createPlan enc operationID inputHash richPages legacyPages state = .ok (plan, some next)) :
    Evolves call state next := by
  unfold createPlan at h
  split at h
  · replace h := of_check h
    cases h
  rename_i hnew
  replace h := of_check h
  replace h := of_check h
  cases h
  refine ⟨⟨fun other plan hplan => ?_, fun _ _ _ h => h⟩, fun _ hempty => ?_, fun _ _ h => .inl h⟩
  · simp only [FileState.savePlan, FileState.plan, getD_some, lookup_insert]
    rw [if_neg]
    · exact hplan
    rintro rfl
    rw [hnew] at hplan
    cases hplan
  have hlookup := congrArg (AList.lookup operationID) (some.inj hempty)
  rw [AList.lookup_insert] at hlookup
  cases hlookup

/-- A claim that changes the state is one for a part that is not there. -/
theorem claim_changes {claimed : Bool}
    (h : claim operationID partID state = .ok (claimed, some next)) :
    (state.parts operationID).lookup partID = none ∧
      next = state.setParts operationID
        ((state.parts operationID).insert partID { state := .unknown }) := by
  replace h := of_check h
  split at h
  · cases h
  rename_i hnew
  cases h
  exact ⟨by simpa using hnew, rfl⟩

/-- A release removes a part that is unknown. -/
theorem release_evolves {requirePlan : Bool} (hcall : call.releases operationID partID)
    (h : release requirePlan operationID partID state = .ok (u, some next)) :
    Evolves call state next := by
  replace h := of_check h
  obtain ⟨hunknown, h⟩ := check_eq_ok.mp h
  cases h
  refine evolves_erase hcall fun messageID hconfirmed => ?_
  rw [hconfirmed] at hunknown
  cases hunknown

/-- A part is replaced unless it is confirmed. -/
theorem replace_evolves {requireUnknown : Bool}
    (h : replace operationID partID part requireUnknown state = .ok (u, some next)) :
    Evolves call state next := by
  replace h := of_check h
  replace h := of_check h
  split at h
  · replace h := of_check h
    cases h
    exact .refl call state
  rename_i hopen
  cases h
  refine evolves_insert fun messageID hconfirmed => ?_
  rw [hconfirmed] at hopen
  cases hopen

/-- What `persist` leaves in the file: what was there, or the state; the state if it succeeds. -/
theorem persist_file (enc : Encoding) (faults : Faults) (state : FileState) (file : File) :
    (persist enc faults state file).2 = file ∧ (persist enc faults state file).1 ≠ .ok () ∨
      faults.write.lands ∧ validateFileState enc state = .ok () ∧
        (persist enc faults state file).2 = some state := by
  unfold persist
  rcases hvalid : validateFileState enc state with e | u
  · exact .inl ⟨rfl, nofun⟩
  cases hwrite : faults.write with
  | refused => exact .inl ⟨rfl, nofun⟩
  | late => exact .inr ⟨rfl, rfl, rfl⟩
  | done =>
    refine .inr ⟨rfl, rfl, ?_⟩
    simp only
    split <;> rfl

/-- What `mutate` leaves in the file: what was there, or what its action has returned; that if it
succeeds and its action has returned a state. -/
theorem mutate_file (faults : Faults) (action : FileState → Except Err (α × Option FileState))
    (hread : readPartReceiptState enc file = .ok state) :
    (mutate enc faults action file).2 = file ∧ (∀ a, (mutate enc faults action file).1 = .ok a →
        action state = .ok (a, none)) ∨
      ∃ a next, action state = .ok (a, some next) ∧ faults.write.lands ∧
        validateFileState enc (next.sealed enc) = .ok () ∧
        (mutate enc faults action file).2 = some (next.sealed enc) := by
  simp only [mutate, hread]
  split
  · exact .inl ⟨rfl, nofun⟩
  split
  · exact .inl ⟨rfl, nofun⟩
  rcases haction : action state with e | result
  · exact .inl ⟨rfl, nofun⟩
  obtain ⟨a, _ | next⟩ := result
  · refine .inl ⟨rfl, fun b hb => ?_⟩
    cases hb
    rfl
  simp only
  have hpersist := persist_file enc faults (next.sealed enc) file
  generalize persist enc faults (next.sealed enc) file = outcome at hpersist ⊢
  obtain ⟨e | u, left⟩ := outcome
  · rcases hpersist with ⟨hsame, -⟩ | ⟨hlands, hvalid, hfile⟩
    · exact .inl ⟨hsame, nofun⟩
    · exact .inr ⟨a, next, rfl, hlands, hvalid, hfile⟩
  rcases hpersist with ⟨-, hfailed⟩ | ⟨hlands, hvalid, hfile⟩
  · exact absurd rfl hfailed
  · exact .inr ⟨a, next, rfl, hlands, hvalid, hfile⟩

/-- A call through `mutate`, whose action evolves the state, evolves what the file holds. -/
theorem mutate_holds {action : FileState → Except Err (α × Option FileState)}
    (h : Holds enc file state)
    (haction : ∀ a next, action state = .ok (a, some next) → Evolves call state next) :
    ∃ next, Holds enc (mutate enc faults action file).2 next ∧
      (next = state ∨ faults.write.lands ∧ Evolves call state next) := by
  rcases mutate_file faults action h.reads with ⟨hsame, -⟩ | ⟨a, next, hnext, hlands, hvalid, hfile⟩
  · rw [hsame]
    exact ⟨state, h, .inl rfl⟩
  have hevolves : Evolves call state (next.sealed enc) := (haction a next hnext).sealed
  rw [hfile]
  exact ⟨_, holds_of_valid hvalid (hevolves.nonempty h.plans), .inr ⟨hlands, hevolves⟩⟩

/-- Every call evolves what the file holds, or leaves it. -/
theorem perform_holds (faults : Faults) (call : Call) (h : Holds enc file state) :
    ∃ next, Holds enc (call.perform enc faults file) next ∧
      (next = state ∨ faults.write.lands ∧ Evolves call state next) := by
  cases call with
  | getOrCreatePlan operationID inputHash richPages legacyPages =>
    simp only [Call.perform, getOrCreatePlan]
    split
    · exact ⟨state, h, .inl rfl⟩
    · exact mutate_holds h fun _ _ => createPlan_evolves
  | claimPart operationID partID =>
    refine mutate_holds h fun claimed next hnext => ?_
    obtain ⟨hnew, rfl⟩ := claim_changes hnext
    refine evolves_insert fun messageID hconfirmed => ?_
    rw [hnew] at hconfirmed
    cases hconfirmed
  | releasePart operationID partID => exact mutate_holds h fun _ _ => release_evolves (.inl rfl)
  | confirmPart operationID partID messageID =>
    simp only [Call.perform, confirmPart]
    split
    · exact ⟨state, h, .inl rfl⟩
    · exact mutate_holds h fun _ _ => replace_evolves
  | markPartUnknown operationID partID => exact mutate_holds h fun _ _ => replace_evolves
  | resolveUnknownConfirmed operationID partID messageID =>
    simp only [Call.perform, resolveUnknownConfirmed]
    split
    · exact ⟨state, h, .inl rfl⟩
    · exact mutate_holds h fun _ _ => replace_evolves
  | resolveUnknownForRetry operationID partID =>
    exact mutate_holds h fun _ _ => release_evolves (.inr rfl)

/-! ## Histories -/

/-- A call with what fails in it. -/
abbrev Step := Call × Faults

/-- The file after calls. -/
def after (enc : Encoding) (file : File) (steps : List Step) : File :=
  steps.foldl (fun file step => step.1.perform enc step.2 file) file

/-- What a history keeps of the state, if the part is not released in it. -/
structure Kept (steps : List Step) (state next : FileState) : Prop extends
    Retains state next where
  fenced : ∀ operationID partID, ((state.parts operationID).lookup partID).isSome →
    ((next.parts operationID).lookup partID).isSome ∨
      ∃ step ∈ steps, step.1.releases operationID partID ∧ step.2.write.lands

/-- Every history keeps that. -/
theorem after_holds (steps : List Step) (h : Holds enc file state) :
    ∃ next, Holds enc (after enc file steps) next ∧ Kept steps state next := by
  induction steps generalizing file state with
  | nil => exact ⟨state, h, ⟨fun _ _ h => h, fun _ _ _ h => h⟩, fun _ _ h => .inl h⟩
  | cons step steps ih =>
    obtain ⟨middle, hmiddle, hstep⟩ := perform_holds step.2 step.1 h
    obtain ⟨next, hnext, hkept⟩ := ih hmiddle
    refine ⟨next, hnext, ?_⟩
    have hlater : ∀ operationID partID, (∃ s ∈ steps, s.1.releases operationID partID ∧
        s.2.write.lands) → ∃ s ∈ step :: steps, s.1.releases operationID partID ∧
        s.2.write.lands :=
      fun _ _ ⟨s, hs, hrest⟩ => ⟨s, mem_cons_of_mem _ hs, hrest⟩
    rcases hstep with rfl | ⟨hlands, hevolves⟩
    · exact ⟨hkept.toRetains,
        fun op part hpart => (hkept.fenced op part hpart).imp_right (hlater op part)⟩
    refine ⟨⟨fun op plan hplan => hkept.plans op plan (hevolves.plans op plan hplan),
      fun op part id hpart => hkept.confirmed op part id (hevolves.confirmed op part id hpart)⟩,
      fun op part hpart => ?_⟩
    rcases hevolves.fenced op part hpart with hpart | hreleases
    · exact (hkept.fenced op part hpart).imp_right (hlater op part)
    · exact .inr ⟨step, mem_cons_self, hreleases, hlands⟩

/-- A claim that is granted is one for a part that is not there, and leaves it there. -/
theorem claimPart_granted (h : Holds enc file state)
    (hgranted : (claimPart enc faults operationID partID file).1 = .ok true) :
    (state.parts operationID).lookup partID = none ∧
      ∃ next, Holds enc (claimPart enc faults operationID partID file).2 next ∧
        ((next.parts operationID).lookup partID).isSome := by
  rcases mutate_file faults (claim operationID partID) h.reads with
    ⟨-, hunchanged⟩ | ⟨claimed, next, hnext, -, hvalid, hfile⟩
  · -- A claim that is granted changes the state.
    have hclaim := hunchanged true hgranted
    replace hclaim := of_check hclaim
    split at hclaim <;> cases hclaim
  obtain ⟨hnew, hnext⟩ := claim_changes hnext
  have hsealed : (next.sealed enc).plans = next.plans ∧
      (next.sealed enc).parts operationID = next.parts operationID := by
    unfold FileState.sealed
    split <;> exact ⟨rfl, rfl⟩
  refine ⟨hnew, next.sealed enc, ?_, ?_⟩
  · rw [claimPart, hfile]
    refine holds_of_valid hvalid ?_
    rw [hsealed.1, hnext]
    exact h.plans
  rw [hsealed.2, hnext, parts_setParts, if_pos rfl, AList.lookup_insert]
  rfl

/-- The plan that the file has for an operation. -/
def planOf (enc : Encoding) (file : File) (operationID : GoString) : Option SavedPlan :=
  (readPartReceiptState enc file).toOption.bind fun state => state.plan operationID

/-- The part that the file has. -/
def partOf (enc : Encoding) (file : File) (operationID partID : GoString) : Option StoredPart :=
  (readPartReceiptState enc file).toOption.bind fun state => (state.parts operationID).lookup partID

/-- In every history of calls, from a file that holds a state or from no file, with any failures:
the file is always read; the plan of an operation stays; a confirmed part keeps its receipt and is
never claimed again; and between two claims of a part that are granted, a release of the part has
been written. -/
theorem parts_fenced (hstart : ∃ state, Holds enc file state) (earlier later : List Step)
    (operationID partID : GoString) :
    (∃ state, readPartReceiptState enc (after enc file earlier) = .ok state) ∧
      (∀ plan, planOf enc (after enc file earlier) operationID = some plan →
        planOf enc (after enc file (earlier ++ later)) operationID = some plan) ∧
      (∀ messageID,
        partOf enc (after enc file earlier) operationID partID = some ⟨.confirmed, messageID⟩ →
        partOf enc (after enc file (earlier ++ later)) operationID partID =
            some ⟨.confirmed, messageID⟩ ∧
          ∀ faults, (claimPart enc faults operationID partID
            (after enc file (earlier ++ later))).1 ≠ .ok true) ∧
      ∀ first second,
        (claimPart enc first operationID partID (after enc file earlier)).1 = .ok true →
        (claimPart enc second operationID partID
          (after enc file (earlier ++ (.claimPart operationID partID, first) :: later))).1 =
            .ok true →
        ∃ step ∈ later, step.1.releases operationID partID ∧ step.2.write.lands := by
  obtain ⟨start, hstart⟩ := hstart
  obtain ⟨before, hbefore, -⟩ := after_holds earlier hstart
  obtain ⟨now, hnow, hkept⟩ := after_holds later hbefore
  have hsplit : ∀ steps, after enc file (earlier ++ steps) =
      after enc (after enc file earlier) steps :=
    fun steps => List.foldl_append
  have hplanOf : ∀ {file state}, Holds enc file state → planOf enc file operationID =
      state.plan operationID := fun h => by rw [planOf, h.reads]; rfl
  have hpartOf : ∀ {file state}, Holds enc file state → partOf enc file operationID partID =
      (state.parts operationID).lookup partID := fun h => by rw [partOf, h.reads]; rfl
  rw [hsplit later, hplanOf hbefore, hplanOf hnow, hpartOf hbefore, hpartOf hnow]
  refine ⟨⟨before, hbefore.reads⟩, fun plan => hkept.plans operationID plan,
    fun messageID hconfirmed => ?_, fun first second hfirst hsecond => ?_⟩
  · have hstays := hkept.confirmed operationID partID messageID hconfirmed
    refine ⟨hstays, fun faults hgranted => ?_⟩
    have hnone := (claimPart_granted hnow hgranted).1
    rw [hstays] at hnone
    cases hnone
  obtain ⟨-, claimed, hclaimed, hthere⟩ := claimPart_granted hbefore hfirst
  obtain ⟨last, hlast, hkept⟩ := after_holds later hclaimed
  rw [hsplit] at hsecond
  have hnone := (claimPart_granted hlast hsecond).1
  rcases hkept.fenced operationID partID hthere with hstill | hreleased
  · rw [hnone] at hstill
    cases hstill
  · exact hreleased

/-- Sums that are all zero. -/
def zeroEncoding : Encoding where
  sum256 _ := Vector.replicate 32 0
  encodePlan _ _ := []
  encodeState _ := []

/-- A notification of one page. -/
def samplePlan : Step := (.getOrCreatePlan (ofText "o") (replicate 64 0x30) [ofText "page"] [], {})

/-- Its part. -/
def samplePart : GoString := ofText "o:part:1-of-1"

/-- A claim and a release of the part. -/
def sampleClaim : Step := (.claimPart (ofText "o") samplePart, {})

def sampleRelease : Step := (.releasePart (ofText "o") samplePart, {})

/-- A claim of the part after calls. -/
def claimAfter (steps : List Step) : Except Err Bool :=
  (claimPart zeroEncoding {} (ofText "o") samplePart (after zeroEncoding none steps)).1

/-- The part is claimed twice: in between it was released. -/
theorem claimed_twice_released :
    claimAfter [samplePlan] = .ok true ∧
      claimAfter ([samplePlan] ++ sampleClaim :: [sampleRelease]) = .ok true ∧
      ∃ step ∈ [sampleRelease], step.1.releases (ofText "o") samplePart ∧ step.2.write.lands := by
  have hfirst : claimAfter [samplePlan] = .ok true := by decide +kernel
  have hsecond : claimAfter ([samplePlan] ++ sampleClaim :: [sampleRelease]) = .ok true := by
    decide +kernel
  have hempty : ∃ state, Holds zeroEncoding none state := ⟨{}, rfl, nofun⟩
  exact ⟨hfirst, hsecond,
    (parts_fenced hempty [samplePlan] [sampleRelease] _ _).2.2.2 {} {} hfirst hsecond⟩

end Bria.NotificationState
