import Bria.Base.Machine
import Bria.Errors

/-!
# Stores on one settings file

The `FileStore`s of `internal/settings` in one process share a file, which is also replaced by hand.
A call holds the lock of the file, so it is one step. A store compares the file with its own
revision only: one that lags behind takes an edit that is older than the newest commit, and then
replaces that commit.
-/

namespace Bria.Settings

open Go Machine

/-- `Snapshot`. -/
structure Snapshot (S : Type) where
  revision : Nat
  settings : S
  deriving DecidableEq

/-- What the file is read as; it may be missing. -/
abbrev File (S : Type) := Except Err (Option (Snapshot S))

/-- How the write of a commit ends. -/
inductive Write (S : Type) where
  | done
  | refused (e : Err)
  /-- The file is replaced, but the write fails later, or is not read back as it was written. -/
  | late (e : Err) (settings : Except Err S)

/-- The file, and what has happened: the newest revision that was committed, whether a commit based
on an older one succeeded, and whether a store took an older edit without a commit. -/
structure Disk (S : Type) where
  file : File S
  newest : Nat
  lost : Bool := false
  revived : Bool := false

/-- `ErrRevisionConflict`. -/
def revisionConflict : Err := .message "settings revision conflict"

/-- A call of a store. -/
inductive Call (S : Type) where
  | reload
  | update (fn : S → Except Err S)
  | compareAndSwap (expected : Nat) (next : S)

variable {S : Type}

section

variable (valid : S → Except Err Unit) (write write' : Write S) (state : Snapshot S) (d : Disk S)

/-- `commitLocked`, with the state of the store after it. -/
def commitLocked (expected : Nat) (next : S) : Except Err Unit × Snapshot S × Disk S :=
  if state.revision ≠ expected then (.error revisionConflict, state, d)
  else if expected = 0xFFFFFFFFFFFFFFFF then
    (.error (.message "settings revision overflow"), state, d)
  else match valid next, write with
    | .error e, _ => (.error (.wrap "validate settings" e), state, d)
    | .ok (), .refused e => (.error (.wrap "persist settings" e), state, d)
    | .ok (), .late e settings =>
      (.error e, state, { d with file := settings.map fun s => some ⟨expected + 1, s⟩ })
    | .ok (), .done => (.ok (), ⟨expected + 1, next⟩, { d with
        file := .ok (some ⟨expected + 1, next⟩)
        newest := max d.newest (expected + 1)
        lost := d.lost || expected < d.newest })

variable [DecidableEq S]

/-- `reloadLocked`, with the state of the store after it. -/
def reloadLocked : Except Err Unit × Snapshot S × Disk S :=
  match d.file with
  | .error e => (.error e, state, d)
  | .ok none =>
    if state.revision = 0 then (.ok (), state, d)
    else (.error (.message "settings file disappeared"), state, d)
  | .ok (some disk) =>
    if disk = state then (.ok (), state, d)
    else if disk.revision < state.revision then (.error revisionConflict, state, d)
    else if disk.revision = state.revision then
      commitLocked valid write state d state.revision disk.settings
    else (.ok (), disk, { d with revived := d.revived || disk.revision < d.newest })

/-- `Reload`, `Update` and `CompareAndSwap`, with the writes of the reload and of what follows. -/
def Call.run (call : Call S) : Except Err Unit × Snapshot S × Disk S :=
  match reloadLocked valid write state d with
  | (.error e, state, d) => (.error e, state, d)
  | (.ok (), state, d) => match call with
    | .reload => (.ok (), state, d)
    | .update fn => match fn state.settings with
      | .error e => (.error e, state, d)
      | .ok next => commitLocked valid write' state d state.revision next
    | .compareAndSwap expected next => commitLocked valid write' state d expected next

end

/-- The file and the stores on it. -/
structure System (S : Type) where
  disk : Disk S
  stores : Nat → Snapshot S

/-- A replacement of the file by hand, or a call of a store. -/
inductive Event (S : Type) where
  | edit (file : File S)
  | call (store : Nat) (call : Call S) (write write' : Write S)

/-- The revision of a file that was read, 0 if it is missing. -/
def revisionOf (found : Option (Snapshot S)) : Nat := (found.map (·.revision)).getD 0

/-- An edit is not older than the newest commit, or every store is ahead of it. -/
def Orderly : Event S → System S → Prop
  | .edit (.ok found), s =>
    s.disk.newest ≤ revisionOf found ∨ ∀ i, revisionOf found < (s.stores i).revision
  | _, _ => True

/-- The file is not older than the newest commit, and nothing was lost. -/
structure Sound (d : Disk S) : Prop where
  file : ∀ found, d.file = .ok found → d.newest ≤ revisionOf found
  lost : d.lost = false
  revived : d.revived = false

/-- Every store is ahead of the file, and nothing was lost. -/
structure Behind (s : System S) : Prop where
  file : ∃ found, s.disk.file = .ok found ∧ ∀ i, revisionOf found < (s.stores i).revision
  lost : s.disk.lost = false
  revived : s.disk.revived = false

/-- What a part of a call does, from a file with `P`: the revision does not decrease, the file is
sound, and after a success the store is not older than the newest commit. -/
structure Kept (P : Prop) (state : Snapshot S) (done : Except Err Unit × Snapshot S × Disk S) :
    Prop where
  le : state.revision ≤ done.2.1.revision
  sound : P → Sound done.2.2
  newest : P → done.1 = .ok () → done.2.2.newest ≤ done.2.1.revision

variable {valid : S → Except Err Unit} {write write' : Write S} {state old : Snapshot S}
  {d : Disk S} {P : Prop}

theorem Kept.error {e : Err} (hle : old.revision ≤ state.revision) (h : P → Sound d) :
    Kept P old (.error e, state, d) :=
  ⟨hle, h, nofun⟩

theorem commitLocked_kept {expected : Nat} {next : S} (hle : old.revision ≤ state.revision)
    (h : P → Sound d) (hnewest : P → d.newest ≤ state.revision) :
    Kept P old (commitLocked valid write state d expected next) := by
  unfold commitLocked
  split
  · exact .error hle h
  rename_i hrevision
  obtain rfl := not_not.mp hrevision
  split
  · exact .error hle h
  split
  · exact .error hle h
  · exact .error hle h
  · -- The write landed, but the store does not know it.
    rename_i read _
    refine .error hle fun p => ⟨?_, (h p).lost, (h p).revived⟩
    rcases read with e | settings
    · exact nofun
    rintro _ ⟨⟩
    exact le_succ_of_le (hnewest p)
  have hmax (p : P) : max d.newest (state.revision + 1) ≤ state.revision + 1 :=
    Nat.max_le.mpr ⟨le_succ_of_le (hnewest p), Nat.le_refl _⟩
  refine ⟨le_succ_of_le hle, fun p => ⟨?_, ?_, (h p).revived⟩, fun p _ => hmax p⟩
  · rintro _ ⟨⟩
    exact hmax p
  · simpa [(h p).lost] using hnewest p

variable [DecidableEq S]

theorem reloadLocked_kept : Kept (Sound d) state (reloadLocked valid write state d) := by
  unfold reloadLocked
  split
  · exact .error (Nat.le_refl _) id
  · split
    · exact ⟨Nat.le_refl _, id, fun h _ => Nat.le_trans (h.file none ‹_›) (Nat.zero_le _)⟩
    · exact .error (Nat.le_refl _) id
  rename_i disk hfile
  split
  · rename_i hsame
    exact ⟨Nat.le_refl _, id, fun h _ => hsame ▸ h.file (some disk) hfile⟩
  split
  · exact .error (Nat.le_refl _) id
  split
  · rename_i hequal
    exact commitLocked_kept (Nat.le_refl _) id fun h => hequal ▸ h.file (some disk) hfile
  refine ⟨Nat.le_of_not_lt ‹_›, fun h => ?_, fun h _ => h.file (some disk) hfile⟩
  have hle : d.newest ≤ disk.revision := h.file (some disk) hfile
  exact ⟨h.file, h.lost, by simpa [h.revived] using hle⟩

theorem Call.run_kept (call : Call S) :
    Kept (Sound d) state (call.run valid write write' state d) := by
  have h : Kept (Sound d) state (reloadLocked valid write state d) := reloadLocked_kept
  unfold run
  split
  · rename_i hdone
    rwa [hdone] at h
  rename_i hdone
  rw [hdone] at h
  -- A commit starts from what the reload has left.
  split
  · exact h
  · split
    · exact .error h.le h.sound
    · exact commitLocked_kept h.le h.sound fun p => h.newest p rfl
  · exact commitLocked_kept h.le h.sound fun p => h.newest p rfl

/-- A store that is ahead of the file refuses it. -/
theorem Call.run_behind (call : Call S) {found : Option (Snapshot S)} (hfile : d.file = .ok found)
    (hlt : revisionOf found < state.revision) :
    ∃ e, call.run valid write write' state d = (.error e, state, d) := by
  have hzero : state.revision ≠ 0 := Nat.ne_zero_of_lt hlt
  unfold run reloadLocked
  rw [hfile]
  rcases found with _ | disk
  · simp only [if_neg hzero]
    exact ⟨_, rfl⟩
  · have hlt : disk.revision < state.revision := hlt
    have hne : disk ≠ state := fun h => Nat.lt_irrefl _ (h ▸ hlt)
    simp only [if_neg hne, if_pos hlt]
    exact ⟨_, rfl⟩

/-- An event. -/
def step (valid : S → Except Err Unit) : Event S → System S → Option (System S)
  | .edit file, s => some { s with disk := { s.disk with file } }
  | .call store call write write', s =>
    let done := call.run valid write write' (s.stores store) s.disk
    some ⟨done.2.2, Function.update s.stores store done.2.1⟩

theorem step_kept (e : Event S) (s s' : System S) (h : step valid e s = some s') :
    (∀ i, (s.stores i).revision ≤ (s'.stores i).revision) ∧
      (Orderly e s → Sound s.disk ∨ Behind s → Sound s'.disk ∨ Behind s') := by
  cases e with
  | edit file =>
    obtain rfl := some.inj h
    refine ⟨fun i => Nat.le_refl _, fun hok hs => ?_⟩
    obtain ⟨hlost, hrevived⟩ : s.disk.lost = false ∧ s.disk.revived = false :=
      hs.elim (fun h => ⟨h.lost, h.revived⟩) fun h => ⟨h.lost, h.revived⟩
    rcases file with e | found
    · exact .inl ⟨nofun, hlost, hrevived⟩
    rcases hok with hle | hahead
    · exact .inl ⟨by rintro _ ⟨⟩; exact hle, hlost, hrevived⟩
    · exact .inr ⟨⟨found, rfl, hahead⟩, hlost, hrevived⟩
  | call store call write write' =>
    obtain rfl := some.inj h
    refine ⟨fun i => ?_, fun _ hs => ?_⟩
    · obtain rfl | hi := eq_or_ne i store
      · simpa using call.run_kept.le
      · simp [Function.update_of_ne hi]
    refine hs.imp call.run_kept.sound fun hbehind => ?_
    obtain ⟨found, hfile, hahead⟩ := hbehind.file
    obtain ⟨e, hrun⟩ := call.run_behind hfile (hahead store)
    rw [hrun, Function.update_eq_self]
    exact hbehind

/-- Over every run, no store's revision decreases. If every edit has at least the revision of the
newest commit, or a smaller one than every store, then no commit replaces one that is newer than what
it was based on, and no edit that is older than the newest commit is taken. -/
theorem orderly_edits_keep_commits {run : List (Event S)} {s s' : System S}
    (hrun : exec (step valid) run s = some s') :
    (∀ i, (s.stores i).revision ≤ (s'.stores i).revision) ∧
      (Along (step valid) Orderly run s → Sound s.disk ∨ Behind s →
        Sound s'.disk ∨ Behind s') := by
  constructor
  · refine exec_invariant (P := fun x => ∀ i, (s.stores i).revision ≤ (x.stores i).revision)
      (fun e x x' h hx i => ?_) hrun fun i => Nat.le_refl _
    exact Nat.le_trans (hx i) ((step_kept e x x' h).1 i)
  intro hok
  exact exec_keeps (P := fun x => Sound x.disk ∨ Behind x)
    (fun e x x' ho h => (step_kept e x x' h).2 ho) hok hrun

/-- The update of a store whose write succeeds. -/
def commit (store next : Nat) : Event Nat := .call store (.update fun _ => .ok next) .done .done

/-- Stores that have all read revision 1. -/
def opened : System Nat := ⟨{ file := .ok (some ⟨1, 0⟩), newest := 1 }, fun _ => ⟨1, 0⟩⟩

/-- An edit that no store takes, and one of the other store's commit, which a store takes. -/
def edited : List (Event Nat) :=
  [.edit (.ok (some ⟨0, 9⟩)), commit 1 3, .edit (.ok (some ⟨1, 9⟩)), commit 0 1,
    .edit (.ok (some ⟨3, 9⟩)), commit 1 3]

theorem edited_sound :
    ∃ s, exec (step fun _ => .ok ()) edited opened = some s ∧ (s.stores 1).revision = 4 ∧
      (Sound s.disk ∨ Behind s) := by
  have hok : Along (step fun _ => .ok ()) Orderly edited opened :=
    ⟨.inr fun _ => Nat.zero_lt_one, trivial, .inl (by decide), trivial, .inl (by decide), trivial,
      trivial⟩
  exact ⟨_, rfl, rfl, (orderly_edits_keep_commits rfl).2 hok
    (.inl ⟨by rintro _ ⟨⟩; decide, rfl, rfl⟩)⟩

/-- One store commits revisions 2 and 3, and an edit has revision 2. The other store, still at 1,
takes it, and then commits a revision 3 of its own. -/
theorem lagging_store_takes_stale_edit :
    ((exec (step fun _ => .ok ()) [commit 0 1, commit 0 2, .edit (.ok (some ⟨2, 9⟩)), commit 1 3]
      opened).any fun s => s.disk.revived && s.disk.lost) := by
  decide

end Bria.Settings
