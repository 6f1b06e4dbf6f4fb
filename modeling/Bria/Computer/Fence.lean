import Bria.Base.Stored
import Bria.Errors

/-!
# The coordinator fence

`computer/fence.go` and the fence part of `computer/file_store.go`. The fence holds the latest term
that was accepted; generation zero is no term. A fence file keeps it on disk, and what it holds in
memory after a write is what it reads back, where bytes that are not UTF-8 are replaced.
-/

namespace Bria.Computer

open Go

/-- `CoordinatorTerm`. The defaults are the zero value. -/
structure CoordinatorTerm where
  coordinatorID : GoString := []
  generation : Nat := 0
  deriving DecidableEq

section

variable (fence term : CoordinatorTerm)

/-- `validateTerm`. -/
def validateTerm : Except Err Unit := do
  refuse (term.generation = 0) (err .invalidGeneration)
  refuse (blank term.coordinatorID) (.wrap "coordinator id is required" (err .invalidGeneration))

/-- `RestoreFence`: the term of the fence. -/
def restoreFence : Except Err CoordinatorTerm :=
  if term.generation = 0 && blank term.coordinatorID then .ok {}
  else do
    validateTerm term
    .ok term

/-- `Fence.Accept`: the term of the fence afterwards. -/
def accept : Except Err CoordinatorTerm := do
  validateTerm term
  if fence.generation = 0 || fence.generation < term.generation then .ok term
  else if term.generation < fence.generation then .error (err .staleGeneration)
  else if term.coordinatorID ≠ fence.coordinatorID then .error (err .coordinatorConflict)
  else .ok fence

/-- `Fence.Validate`. -/
def validate : Except Err Unit := do
  validateTerm term
  refuse (fence.generation = 0) (err .noCoordinator)
  refuse (term.generation < fence.generation) (err .staleGeneration)
  refuse (fence.generation < term.generation) (err .futureGeneration)
  refuse (term.coordinatorID ≠ fence.coordinatorID) (err .coordinatorConflict)

/-- A fence accepts in `Validate` exactly the term that it holds. -/
theorem validate_eq_ok {fence term : CoordinatorTerm} :
    validate fence term = .ok () ↔ validateTerm term = .ok () ∧ fence = term := by
  obtain ⟨fid, fgen⟩ := fence
  obtain ⟨tid, tgen⟩ := term
  simp only [validate, check_eq_ok, refuse_eq_ok, decide_eq_false_iff_not,
    CoordinatorTerm.mk.injEq, validateTerm]
  constructor
  · rintro ⟨hterm, -, hstale, hfuture, hid⟩
    exact ⟨hterm, (not_not.mp hid).symm, by omega⟩
  rintro ⟨hterm, rfl, rfl⟩
  exact ⟨hterm, hterm.1, by omega, by omega, by simp⟩

/-! ## The file -/

/-- A term as it is read back from a file. -/
def CoordinatorTerm.reread : CoordinatorTerm :=
  { term with coordinatorID := jsonText term.coordinatorID }

end

/-- `FenceFile`. -/
abbrev FenceFile := Stored CoordinatorTerm

/-- `FenceFile.Validate`. -/
def FenceFile.validate (fence : FenceFile) (term : CoordinatorTerm) : Except Err Unit := do
  let current ← restoreFence fence.memory
  Computer.validate current term

/-- `FenceFile.Accept`. -/
def FenceFile.accept (fence : FenceFile) (write : Write) (term : CoordinatorTerm) :
    Except Err Unit × FenceFile :=
  match restoreFence fence.memory >>= fun current => Computer.accept current term with
  | .error e => (.error e, fence)
  | .ok next =>
    if write = .done then
      match restoreFence next.reread with
      | .error e => (.error e, { fence with file := next })
      | .ok verified => (.ok (), { memory := verified, file := next })
    else (.error (.message "write fence"), fence.save write next)

/-- `OpenFenceFile` on the file that is there. -/
def FenceFile.reopen (fence : FenceFile) : Except Err FenceFile := do
  let current ← restoreFence fence.file.reread
  .ok { fence with memory := current }

theorem restoreFence_of_valid {term : CoordinatorTerm} (h : validateTerm term = .ok ()) :
    restoreFence term = .ok term := by
  have hgeneration : term.generation ≠ 0 := by
    simp only [validateTerm, check_eq_ok, refuse_eq_ok, decide_eq_false_iff_not] at h
    exact h.1
  simp only [restoreFence, hgeneration, decide_false, Bool.false_and, false_eq_true, ↓reduceIte, h]
  rfl

theorem eq_of_restoreFence {snapshot term : CoordinatorTerm} (h : restoreFence snapshot = .ok term)
    (hterm : validateTerm term = .ok ()) : snapshot = term := by
  unfold restoreFence at h
  split at h
  · obtain rfl := ok.inj h
    cases hterm
  have heq := of_check h
  exact ok.inj heq

/-- The fence file accepts in `Validate` exactly the term that it holds. -/
theorem FenceFile.validate_eq_ok {fence : FenceFile} {term : CoordinatorTerm} :
    fence.validate term = .ok () ↔ validateTerm term = .ok () ∧ fence.memory = term := by
  unfold FenceFile.validate
  constructor
  · intro h
    obtain ⟨current, hcurrent, h⟩ := bind_eq_ok.mp h
    obtain ⟨hterm, rfl⟩ := Computer.validate_eq_ok.mp h
    exact ⟨hterm, eq_of_restoreFence hcurrent hterm⟩
  rintro ⟨hterm, rfl⟩
  rw [restoreFence_of_valid hterm]
  exact Computer.validate_eq_ok.mpr ⟨hterm, rfl⟩

/-! ## A handover -/

/-- The fence holds one of two terms, in memory and in what its file reads back as. -/
def FenceFile.Within (old new : CoordinatorTerm) (fence : FenceFile) : Prop :=
  (fence.memory = old ∨ fence.memory = new) ∧ (fence.file.reread = old ∨ fence.file.reread = new)

/-- Two valid terms of which the second succeeds the first, and reads back as it is. -/
structure Succeeds (old new : CoordinatorTerm) : Prop where
  valid : validateTerm old = .ok ()
  next : validateTerm new = .ok ()
  later : old.generation < new.generation
  text : new.reread = new

variable {fence : FenceFile} {old new : CoordinatorTerm} {write : Write}

/-- A fence that was opened from its file and holds the old term. -/
theorem FenceFile.within_of_validate (hopened : fence.reopen = .ok fence)
    (h : fence.validate old = .ok ()) : fence.Within old new := by
  obtain ⟨hold, hmem⟩ := FenceFile.validate_eq_ok.mp h
  obtain ⟨current, hcurrent, heq⟩ := bind_eq_ok.mp hopened
  have hcurrent' : current = old := (congrArg Stored.memory (ok.inj heq)).trans hmem
  obtain rfl := hcurrent'
  exact ⟨.inl hmem, .inl (eq_of_restoreFence hcurrent hold)⟩

section

variable (h : fence.Within old new) (hterms : Succeeds old new)
include h hterms

/-- A fence between the two terms accepts the new one if its write succeeds. -/
theorem FenceFile.Within.accept :
    (write = .done ∧ fence.accept write new = (.ok (), ⟨new, new⟩)) ∨
      (write ≠ .done ∧ ∃ e, fence.accept write new = (.error e, fence.save write new)) := by
  have hnext : (restoreFence fence.memory >>= fun current => Computer.accept current new) =
      .ok new := by
    have haccept : ∀ current, current = old ∨ current = new →
        Computer.accept current new = .ok new := by
      rintro current (rfl | rfl)
      · rw [Computer.accept, hterms.next]
        exact if_pos (by simp [hterms.later])
      rw [Computer.accept, hterms.next]
      simp [bind, Except.bind]
    have hrestore : restoreFence fence.memory = .ok fence.memory := by
      rcases h.1 with hmem | hmem <;> rw [hmem]
      · exact restoreFence_of_valid hterms.valid
      · exact restoreFence_of_valid hterms.next
    rw [hrestore]
    exact haccept _ h.1
  unfold FenceFile.accept
  rw [hnext]
  by_cases hwrite : write = .done
  · refine .inl ⟨hwrite, ?_⟩
    simp only [hwrite, ↓reduceIte, hterms.text, restoreFence_of_valid hterms.next]
  refine .inr ⟨hwrite, .message "write fence", ?_⟩
  simp only [hwrite, ↓reduceIte]

/-- A fence between the two terms stays there when the new one is written. -/
theorem FenceFile.Within.save : FenceFile.Within old new (Stored.save fence write new) := by
  cases write with
  | refused => exact h
  | late => exact ⟨h.1, .inr hterms.text⟩
  | done => exact ⟨.inr rfl, .inr hterms.text⟩

/-- A fence between the two terms is opened again to one of them. -/
theorem FenceFile.Within.reopen :
    fence.reopen = .ok { fence with memory := fence.file.reread } := by
  have hrestore : restoreFence fence.file.reread = .ok fence.file.reread := by
    rcases h.2 with hfile | hfile <;> rw [hfile]
    · exact restoreFence_of_valid hterms.valid
    · exact restoreFence_of_valid hterms.next
  unfold FenceFile.reopen
  rw [hrestore]
  rfl

end

end Bria.Computer
