import Bria.Domain.Session
import Bria.Go.Map

/-!
# Imported archives

`archiveimport/merge.go`: archived sessions that were found outside are added to those that are
stored, unless one of them is in conflict. What is stored stays as it is (`merge_keeps`).
-/

namespace Bria.ArchiveImport

open Go Domain

/-- `validSession`. -/
def validSession (session : Session) : Except Err Unit :=
  match restoreSession session.snapshot with
  | .ok restored => refuse (!restored.equal session) (err .importConflict)
  | .error _ => .error (err .importConflict)

/-- `providerIdentity`. -/
structure ProviderIdentity where
  computer : GoString
  provider : Provider
  session : GoString
  deriving DecidableEq

/-- The provider identity of a session with a binding. -/
def providerIdentity (session : Session) (binding : ProviderBinding) : ProviderIdentity :=
  ⟨session.computerID, binding.provider, binding.sessionID⟩

/-- The variables of `Merge`. -/
structure Merging where
  next : Map GoString Session := ∅
  byID : Map GoString GoString := ∅
  byProvider : Map ProviderIdentity GoString := ∅
  changed : Bool := false

/-- Whether an index has a value for the key that is not the given one. -/
def taken {K : Type} [DecidableEq K] (index : Map K GoString) (key : K) (value : GoString) : Bool :=
  (index.lookup key).any fun other => other != value

/-- The provider index after a stored session. -/
def adoptProvider (byProvider : Map ProviderIdentity GoString) (session : Session) :
    Except Err (Map ProviderIdentity GoString) :=
  match session.binding with
  | none => .ok byProvider
  | some binding => do
    refuse (taken byProvider (providerIdentity session binding) session.id) (err .importConflict)
    .ok (byProvider.insert (providerIdentity session binding) session.id)

/-- One turn of the loop over the stored sessions. -/
def adopt (m : Merging) (entry : Σ _ : GoString, Session) : Except Err Merging := do
  validSession entry.2
  refuse (taken m.byID entry.2.id entry.1) (err .importConflict)
  let byProvider ← adoptProvider m.byProvider entry.2
  .ok { m with
    next := m.next.insert entry.1 entry.2
    byID := m.byID.insert entry.2.id entry.1
    byProvider }

/-- A candidate that is not stored yet. An archived session has a binding. -/
def add (m : Merging) (candidate : Session) : Except Err Merging := do
  let provider := providerIdentity candidate (candidate.binding.getD ⟨.other [], [], 0⟩)
  refuse (taken m.byProvider provider candidate.id) (err .importConflict)
  .ok {
    next := m.next.insert candidate.intentID candidate
    byID := m.byID.insert candidate.id candidate.intentID
    byProvider := m.byProvider.insert provider candidate.id
    changed := true }

/-- The check of a candidate. -/
def validCandidate (candidate : Session) : Except Err Unit := do
  (validSession candidate).mapError fun _ =>
    .wrap ": candidate is not a valid archived session" (err .importConflict)
  refuse (candidate.status ≠ .archived)
    (.wrap ": candidate is not a valid archived session" (err .importConflict))

/-- One turn of the loop over the candidates. -/
def consider (m : Merging) (candidate : Session) : Except Err Merging := do
  validCandidate candidate
  match m.byID.lookup candidate.id with
  | some intent => do
    refuse (!(m.next.lookup intent).any fun known => known.equal candidate) (err .importConflict)
    .ok m
  | none =>
    match m.next.lookup candidate.intentID with
    | some existing => do
      refuse (!existing.equal candidate) (err .importConflict)
      .ok m
    | none => add m candidate

/-- `Merge`. -/
def merge (current : Map GoString Session) (candidates : List Session) :
    Except Err (Map GoString Session × Bool) := do
  let adopted ← current.entries.foldlM adopt {}
  let merged ← candidates.foldlM consider adopted
  .ok (merged.next, merged.changed)

/-- `Equal`. -/
def equal (left right : Map GoString Session) : Bool :=
  left.entries.length = right.entries.length &&
    left.entries.all fun e => (right.lookup e.1).any fun other => e.2.equal other

/-! ## What is stored stays -/

variable {m merged : Merging} {candidates : List Session}

theorem foldlM_adopt_next {entries : List (Σ _ : GoString, Session)}
    (h : entries.foldlM adopt m = .ok merged) :
    merged.next = entries.foldl (fun next e => next.insert e.1 e.2) m.next := by
  induction entries generalizing m with
  | nil =>
    obtain rfl := ok.inj h
    rfl
  | cons e rest ih =>
    rw [List.foldlM_cons] at h
    obtain ⟨m1, hadopt, h⟩ := bind_eq_ok.mp h
    replace hadopt := of_check hadopt
    replace hadopt := of_check hadopt
    obtain ⟨byProvider, -, hadopt⟩ := bind_eq_ok.mp hadopt
    obtain rfl := ok.inj hadopt
    exact ih h

variable {intent : GoString} {session : Session}

/-- A candidate does not replace a session. -/
theorem consider_keeps {candidate : Session} (h : consider m candidate = .ok merged)
    (hsession : m.next.lookup intent = some session) :
    merged.next.lookup intent = some session := by
  replace h := of_check h
  split at h
  · replace h := of_check h
    obtain rfl := ok.inj h
    exact hsession
  split at h
  · replace h := of_check h
    obtain rfl := ok.inj h
    exact hsession
  rename_i hnew
  replace h := of_check h
  obtain rfl := ok.inj h
  have hother : intent ≠ candidate.intentID := by
    rintro rfl
    rw [hnew] at hsession
    cases hsession
  rw [lookup_insert, if_neg hother]
  exact hsession

theorem foldlM_consider_keeps (h : candidates.foldlM consider m = .ok merged)
    (hsession : m.next.lookup intent = some session) :
    merged.next.lookup intent = some session := by
  induction candidates generalizing m with
  | nil =>
    obtain rfl := ok.inj h
    exact hsession
  | cons candidate rest ih =>
    rw [List.foldlM_cons] at h
    obtain ⟨m1, hconsider, h⟩ := bind_eq_ok.mp h
    exact ih h (consider_keeps hconsider hsession)

/-- An import keeps every session that is stored. -/
theorem merge_keeps {current next : Map GoString Session} {changed : Bool}
    (h : merge current candidates = .ok (next, changed))
    (hsession : current.lookup intent = some session) : next.lookup intent = some session := by
  obtain ⟨adopted, hadopted, h⟩ := bind_eq_ok.mp h
  obtain ⟨merged, hmerged, h⟩ := bind_eq_ok.mp h
  obtain ⟨rfl, -⟩ := Prod.mk.inj (ok.inj h)
  refine foldlM_consider_keeps hmerged ?_
  rw [foldlM_adopt_next hadopted]
  exact Map.lookup_foldl_insert current.nodupKeys (mem_entries.mpr hsession)

end Bria.ArchiveImport
