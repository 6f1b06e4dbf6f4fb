import Bria.CoordinatorState.Snapshot

/-!
# The store of staged snapshots

`coordinatorstate/store.go`: the versions that a coordinator has staged, the pointer to the active
one, and the marker that stands while the pointer is moved. A version is a directory that is named
after the digest of its snapshot; its manifest has the transfer id under which it was staged.

The files are the state, and a store has no memory of its own. Every write of a call may fail before
or after it has replaced its file (`Faults`); a process that ends in the middle of a call leaves the
files as a failed write does. Reads do not fail. The encodings and SHA-256 are left open (`Codec`).

A version is never removed, and a stage that finds one compares the transfer id. So a snapshot can be
staged under a new transfer id exactly if no snapshot with its digest was staged before
(`staged_anew_iff`): what an aborted transfer has staged stays in the way of every later one.
-/

namespace Bria.CoordinatorState

open Go CoordinatorBundle
open CoordinatorTransfer (SnapshotReceipt)

/-- `formatVersion`. -/
def formatVersion : Int := 1

/-- `maxComponentSize`. -/
def maxComponentSize : Nat := 32 * 1024 * 1024

/-- `componentNames`. -/
def componentNames : List String := [
  "catalog.json", "routes.json", "settings.json", "sessions.json", "telegram-scope.json",
  "telegram-ui.json", "journals.json", "inputs.json", "outputs.json", "checkpoint.json",
  "callback-key-id.json", "callback-registry.json", "callback-operations.json"]

/-- The encodings. -/
structure Codec (P : Type) extends Screen P where
  /-- `sha256.Sum256`. -/
  sum256 : GoString → Vector UInt8 32
  /-- The text whose sum is the digest of a bundle. -/
  canonical : Bundle P → GoString
  /-- `json.Marshal` of the component of that name, none if it fails. -/
  component : String → Bundle P → Option GoString
  /-- The bundle without components. -/
  zero : Bundle P
  /-- `decodeStrict` into the component of that name, none if it fails. -/
  decode : String → GoString → Bundle P → Option (Bundle P)

variable {P : Type} {name : String} {used : List GoString}

/-- `hashBytes`. -/
def Codec.hashBytes (codec : Codec P) (data : GoString) : GoString :=
  hexText (codec.sum256 data).toList

/-- `Digest` of a bundle that is valid. -/
def Codec.digest (codec : Codec P) (snapshot : Bundle P) : GoString :=
  codec.hashBytes (codec.canonical snapshot)

/-- `manifest`. -/
structure Manifest where
  (version snapshotVersion : Int)
  (transferID digest : GoString)
  components : Map String GoString
  (callbackOperationStateIncluded callbackSigningSecretsIncluded : Bool)

/-- The directory of a version. -/
structure Version where
  manifest : Manifest
  components : Map String GoString

/-- `pointer`. -/
structure Pointer where
  version : Int
  (transferID digest : GoString)
  previousTransferID : GoString := []
  previousDigest : GoString := []

/-- `activationMarker`. -/
structure ActivationMarker where
  version : Int
  previous : Option Pointer
  next : Pointer

/-- The files. -/
structure Disk where
  versions : Map GoString Version := ∅
  active : Option Pointer := none
  activation : Option ActivationMarker := none

/-- How the writes of a call end, and whether its context has ended. -/
structure Faults where
  cancelled : Bool := false
  /-- The directory of the candidate is not made. -/
  uncreated : Bool := false
  /-- The context ends before the turn of that component. -/
  interrupted : String → Bool := fun _ => false
  /-- The file of that name is not written to the candidate. -/
  unwritten : String → Bool := fun _ => false
  /-- The renaming of the candidate. -/
  install : Write := .done
  marker : Write := .done
  pointer : Write := .done
  /-- The removal of the marker. -/
  cleanup : Write := .done

/-- An error of the file system or of the context. -/
def fileError : Err := .message "coordinator state"

/-- A letter, a digit, or one of the signs that an id may have. -/
def safeByte (b : UInt8) : Bool :=
  (0x61 ≤ b && b ≤ 0x7A) || (0x41 ≤ b && b ≤ 0x5A) || (0x30 ≤ b && b ≤ 0x39) ||
    b = 0x2D || b = 0x5F || b = 0x2E

/-- `safeID`. -/
def safeID (value : GoString) : Bool := 1 ≤ value.length && value.length ≤ 128 && value.all safeByte

/-- `validDigest`. -/
def validDigest (value : GoString) : Bool := hexDecodes 32 value

theorem validDigest_digest {codec : Codec P} {snapshot : Bundle P} :
    validDigest (codec.digest snapshot) := by
  have hsum := hexDecodes_hexText (codec.sum256 (codec.canonical snapshot)).toList
  rwa [Vector.length_toList] at hsum

/-! ## The candidate -/

variable {version : Version}

section Candidate

variable (codec : Codec P) (faults : Faults)

/-- One turn of the loop of `Stage`: the files of the candidate. -/
def writeComponent (snapshot : Bundle P) (files : Map String GoString) (name : String) :
    Except Err (Map String GoString) := do
  refuse (faults.interrupted name) fileError
  match codec.component name snapshot with
  | none => .error (err .invalidState)
  | some data =>
    -- `marshalCanonical` ends the text with a newline.
    let encoded := data ++ [0x0A]
    refuse (maxComponentSize < encoded.length) (err .invalidState)
    refuse (codec.sensitive encoded) (.wrap name (err .sensitiveState))
    refuse (faults.unwritten name) fileError
    return files.insert name encoded

/-- The candidate of `Stage`. -/
def candidate (transferID : GoString) (snapshot : Bundle P) : Except Err Version := do
  refuse faults.uncreated fileError
  let files ← componentNames.foldlM (writeComponent codec faults snapshot) ∅
  refuse (faults.unwritten "manifest.json") fileError
  return {
    components := files
    manifest := {
      version := formatVersion
      snapshotVersion := snapshot.version
      transferID
      digest := codec.digest snapshot
      components := files.update fun _ encoded => some (codec.hashBytes encoded)
      callbackOperationStateIncluded := true
      callbackSigningSecretsIncluded := false } }

/-- The file of a component: `marshalCanonical` of it. -/
def Codec.encoded (codec : Codec P) (snapshot : Bundle P) (name : String) : GoString :=
  (codec.component name snapshot).getD [] ++ [0x0A]

/-- The component can be written. -/
structure Writable (codec : Codec P) (snapshot : Bundle P) (name : String) : Prop where
  encodes : (codec.component name snapshot).isSome
  short : (codec.encoded snapshot name).length ≤ maxComponentSize
  clear : codec.sensitive (codec.encoded snapshot name) = false

/-- The files of a candidate. -/
def Codec.files (codec : Codec P) (snapshot : Bundle P) : Map String GoString :=
  componentNames.foldl (fun files name => files.insert name (codec.encoded snapshot name)) ∅

/-- One turn of the loop of `readVersion`. -/
def readComponent (version : Version) (snapshot : Bundle P) (name : String) :
    Except Err (Bundle P) :=
  match version.components.lookup name with
  | none => .error (err .invalidState)
  | some data => do
    refuse (maxComponentSize < data.length ||
      codec.hashBytes data ≠ (version.manifest.components.lookup name).getD [])
      (err .invalidState)
    match codec.decode name data snapshot with
    | none => .error (err .invalidState)
    | some snapshot => return snapshot

/-- The bundle that the files of a snapshot are decoded to, none if they are not. -/
def Codec.decoded (codec : Codec P) (snapshot : Bundle P) : Option (Bundle P) :=
  (componentNames.foldlM
    (fun decoded name => codec.decode name (codec.encoded snapshot name) decoded) codec.zero).map
    fun decoded => { decoded with version := bundleVersion }

variable {codec : Codec P} {faults : Faults} {transferID : GoString} {snapshot : Bundle P}

theorem candidate_transferID (h : candidate codec faults transferID snapshot = .ok version) :
    version.manifest.transferID = transferID := by
  replace h := of_check h
  obtain ⟨files, -, h⟩ := bind_eq_ok.mp h
  replace h := of_check h
  cases h
  rfl

theorem writeComponent_ok_iff {files files' : Map String GoString} :
    writeComponent codec {} snapshot files name = .ok files' ↔
      Writable codec snapshot name ∧ files' = files.insert name (codec.encoded snapshot name) := by
  unfold writeComponent
  cases hcomponent : codec.component name snapshot with
  | none =>
    constructor
    · intro h
      cases h
    rintro ⟨hwritable, -⟩
    simpa [hcomponent] using hwritable.encodes
  | some data =>
    have hencoded : codec.encoded snapshot name = data ++ [0x0A] := by
      rw [Codec.encoded, hcomponent, getD_some]
    simp only [check_eq_ok, refuse_eq_ok, decide_eq_false_iff_not, not_lt, pure, Except.pure,
      ok.injEq, ← hencoded, true_and]
    constructor
    · rintro ⟨hshort, hclear, rfl⟩
      exact ⟨⟨by simp [hcomponent], hshort, hclear⟩, rfl⟩
    rintro ⟨hwritable, rfl⟩
    exact ⟨hwritable.short, hwritable.clear, rfl⟩

/-- The version that a stage installs, if nothing fails. -/
def Codec.written (codec : Codec P) (transferID : GoString) (snapshot : Bundle P) : Version where
  components := codec.files snapshot
  manifest := {
    version := formatVersion
    snapshotVersion := snapshot.version
    transferID
    digest := codec.digest snapshot
    components := (codec.files snapshot).update fun _ encoded => some (codec.hashBytes encoded)
    callbackOperationStateIncluded := true
    callbackSigningSecretsIncluded := false }

theorem candidate_ok_iff :
    candidate codec {} transferID snapshot = .ok version ↔
      (∀ name ∈ componentNames, Writable codec snapshot name) ∧
        version = codec.written transferID snapshot := by
  have hloop {files : Map String GoString} :
      componentNames.foldlM (writeComponent codec {} snapshot) ∅ = .ok files ↔
        (∀ name ∈ componentNames, Writable codec snapshot name) ∧ files = codec.files snapshot := by
    have hstep : ∀ (files : Map String GoString) (name : String) (files' : Map String GoString),
        writeComponent codec {} snapshot files name = .ok files' ↔
          Writable codec snapshot name ∧ True ∧
            files' = files.insert name (codec.encoded snapshot name) :=
      fun _ _ _ => writeComponent_ok_iff.trans (by rw [true_and])
    rw [Table.scan_fresh_ok_iff (D := fun _ _ => True) hstep fun _ _ _ => by simp]
    simp [Codec.files, List.pairwise_of_forall]
  simp only [candidate, bind_eq_ok, Unique.exists_iff, refuse_eq_ok, hloop, pure, Except.pure,
    ok.injEq, true_and]
  constructor
  · rintro ⟨_, ⟨hwritable, rfl⟩, rfl⟩
    exact ⟨hwritable, rfl⟩
  rintro ⟨hwritable, rfl⟩
  exact ⟨_, ⟨hwritable, rfl⟩, rfl⟩

theorem files_eq : codec.files snapshot =
    ((componentNames.map fun name => ⟨name, codec.encoded snapshot name⟩) :
      List (Σ _ : String, GoString)).foldl (fun files e => files.insert e.1 e.2) ∅ := by
  rw [Codec.files, List.foldl_map]

theorem componentNames_nodupKeys : ((componentNames.map fun name =>
    ⟨name, codec.encoded snapshot name⟩) : List (Σ _ : String, GoString)).NodupKeys := by
  have hkeys : ((componentNames.map fun name => ⟨name, codec.encoded snapshot name⟩) :
      List (Σ _ : String, GoString)).keys = componentNames := by
    simp [List.keys, Function.comp_def]
  rw [List.NodupKeys, hkeys]
  decide

theorem lookup_files (hname : name ∈ componentNames) :
    (codec.files snapshot).lookup name = some (codec.encoded snapshot name) := by
  rw [files_eq]
  exact Map.lookup_foldl_insert componentNames_nodupKeys (mem_map_of_mem hname)

/-- A candidate has as many files as there are components. -/
theorem length_files : (codec.files snapshot).entries.length = componentNames.length := by
  rw [files_eq, Map.length_foldl_insert componentNames_nodupKeys (fun k _ => AList.notMem_empty k)]
  simp

/-- A component of the version that a stage installs is decoded. -/
theorem readComponent_written {decoded : Bundle P} (hname : name ∈ componentNames)
    (hwritable : Writable codec snapshot name) :
    readComponent codec (codec.written transferID snapshot) decoded name =
      (codec.decode name (codec.encoded snapshot name) decoded).elim (.error (err .invalidState))
        .ok := by
  have hlookup : (codec.files snapshot).lookup name = some (codec.encoded snapshot name) :=
    lookup_files hname
  have hshort : ¬ maxComponentSize < (codec.encoded snapshot name).length :=
    Nat.not_lt.mpr hwritable.short
  simp only [readComponent, Codec.written, hlookup, lookup_update, bind_some,
    getD_some, hshort, decide_false, ne_eq, not_true_eq_false, Bool.or_self, refuse]
  cases codec.decode name (codec.encoded snapshot name) decoded <;> rfl

/-- The components of the version that a stage installs are decoded one after the other. -/
theorem readComponents_written (hwritable : ∀ name ∈ componentNames, Writable codec snapshot name)
    {names : List String} (hnames : names ⊆ componentNames) {start decoded : Bundle P} :
    names.foldlM (readComponent codec (codec.written transferID snapshot)) start = .ok decoded ↔
      names.foldlM (fun decoded name => codec.decode name (codec.encoded snapshot name) decoded)
        start = some decoded := by
  induction names generalizing start with
  | nil => simp [pure, Except.pure]
  | cons name names ih =>
    obtain ⟨hname, hnames⟩ := List.cons_subset.mp hnames
    rw [List.foldlM_cons, List.foldlM_cons, readComponent_written hname (hwritable name hname)]
    cases codec.decode name (codec.encoded snapshot name) start with
    | none => simp [bind, Except.bind]
    | some next => exact ih hnames

end Candidate

/-! ## Reading -/

variable [Parts P] (codec : Codec P) (faults : Faults)

section

variable (disk : Disk) (transferID : GoString)

/-- The checks of `readVersion` on a directory. -/
def Version.read (version : Version) (digest : GoString) :
    Except Err (Bundle P × SnapshotReceipt) := do
  refuse (version.manifest.version ≠ formatVersion ||
    version.manifest.snapshotVersion ≠ bundleVersion || version.manifest.digest ≠ digest ||
    !safeID version.manifest.transferID || !version.manifest.callbackOperationStateIncluded ||
    version.manifest.callbackSigningSecretsIncluded ||
    version.manifest.components.entries.length ≠ componentNames.length) (err .invalidState)
  let decoded ← componentNames.foldlM (readComponent codec version) codec.zero
  let snapshot := { decoded with version := version.manifest.snapshotVersion }
  validateSnapshot codec.toScreen snapshot
  refuse (codec.digest snapshot ≠ digest) (err .invalidState)
  return (snapshot, ⟨version.manifest.transferID, digest⟩)

/-- `readVersion`. -/
def readVersion (digest : GoString) : Except Err (Bundle P × SnapshotReceipt) := do
  refuse (!validDigest digest) (err .invalidState)
  match disk.versions.lookup digest with
  | none => .error (err .invalidState)
  | some version => version.read codec digest

/-- The checks on a pointer that is read. -/
def Pointer.valid (pointer : Pointer) : Bool :=
  pointer.version = formatVersion && safeID pointer.transferID && validDigest pointer.digest

/-- `readPointer`, none if there is no pointer. -/
def readPointer : Except Err (Option Pointer) := do
  refuse (disk.active.any fun pointer => !pointer.valid) (err .invalidState)
  return disk.active

/-- `readActive`. -/
def readActive : Except Err (Bundle P × SnapshotReceipt) := do
  match ← readPointer disk with
  | none => .error fileError
  | some pointer =>
    match readVersion codec disk pointer.digest with
    | .error _ => .error (err .invalidState)
    | .ok (snapshot, receipt) =>
      refuse (receipt ≠ ⟨pointer.transferID, pointer.digest⟩) (err .invalidState)
      return (snapshot, receipt)

/-- `requireNoRecovery`. -/
def requireNoRecovery : Except Err Unit := refuse disk.activation.isSome (err .recoveryRequired)

/-! ## Staging -/

/-- The checks of `Stage` before it looks for a version. -/
def checkStage (snapshot : Bundle P) : Except Err Unit := do
  refuse (!safeID transferID) (err .invalidState)
  refuse faults.cancelled fileError
  validateSnapshot codec.toScreen snapshot
  requireNoRecovery disk

/-- The receipt of a version that `Stage` finds. -/
def existing (receipt : SnapshotReceipt) : Except Err SnapshotReceipt :=
  match readVersion codec disk receipt.digest with
  | .error _ => .error (err .invalidState)
  | .ok (_, found) => do
    refuse (found ≠ receipt) (err .invalidState)
    return receipt

/-- The receipt of a version that `Stage` has written. -/
def reread (disk : Disk) (receipt : SnapshotReceipt) : Except Err SnapshotReceipt := do
  let (_, found) ← (readVersion codec disk receipt.digest).mapError
    (.wrap "reread staged coordinator bundle")
  refuse (found ≠ receipt) (err .invalidState)
  return receipt

/-- `Stage`. -/
def stage (snapshot : Bundle P) (disk : Disk) : Except Err SnapshotReceipt × Disk :=
  let receipt : SnapshotReceipt := ⟨transferID, codec.digest snapshot⟩
  match checkStage codec faults disk transferID snapshot with
  | .error e => (.error e, disk)
  | .ok _ =>
    if (disk.versions.lookup receipt.digest).isSome then (existing codec disk receipt, disk)
    else match candidate codec faults transferID snapshot with
      | .error e => (.error e, disk)
      | .ok version =>
        let next := { disk with versions := disk.versions.insert receipt.digest version }
        match faults.install with
        | .refused => (.error fileError, disk)
        | .late => (.error fileError, next)
        | .done => (reread codec next receipt, next)

/-! ## Activation -/

/-- The writes of `Apply` and of `Rollback`: the marker, the pointer, and the removal of the marker
if the version that is then active is the one that is meant. -/
def activate (marker : ActivationMarker) (meant : Bundle P × SnapshotReceipt → Bool) (disk : Disk) :
    Except Err Unit × Disk :=
  let marked := { disk with activation := some marker }
  let moved := { marked with active := some marker.next }
  match faults.marker, faults.pointer with
  | .refused, _ => (.error fileError, disk)
  | .late, _ => (.error fileError, marked)
  | .done, .refused => (.error fileError, marked)
  | .done, .late => (.error fileError, moved)
  | .done, .done =>
    if ((readActive codec moved).toOption.any meant) = false then
      (.error (err .recoveryRequired), moved)
    else match faults.cleanup with
      | .refused => (.error (err .recoveryRequired), moved)
      | .late => (.error fileError, { moved with activation := none })
      | .done => (.ok (), { moved with activation := none })

/-- The checks of `Apply`: the pointer that is active, and whether it is already the one that is
asked for. -/
def checkApply (digest : GoString) :
    Except Err (Option Pointer × Bool) := do
  refuse (!safeID transferID || !validDigest digest) (err .invalidState)
  refuse faults.cancelled fileError
  requireNoRecovery disk
  match readVersion codec disk digest with
  | .error _ => .error (err .invalidState)
  | .ok (_, receipt) =>
    refuse (receipt.transferID ≠ transferID) (err .invalidState)
    let current ← readPointer disk
    if current.any fun pointer => pointer.transferID = transferID && pointer.digest = digest then
      refuse ((readActive codec disk).toOption.all fun active =>
        active.2 ≠ receipt || codec.digest active.1 ≠ digest) (err .invalidState)
      return (current, true)
    else return (current, false)

/-- `Apply`. -/
def apply (digest : GoString) (disk : Disk) : Except Err Unit × Disk :=
  match checkApply codec faults disk transferID digest with
  | .error e => (.error e, disk)
  | .ok (_, true) => (.ok (), disk)
  | .ok (previous, false) =>
    activate codec faults {
      version := formatVersion
      previous
      next := {
        version := formatVersion
        transferID
        digest
        previousTransferID := (previous.map (·.transferID)).getD []
        previousDigest := (previous.map (·.digest)).getD [] } }
      (fun active => active.2 = ⟨transferID, digest⟩ && codec.digest active.1 = digest) disk

/-- The checks of `Rollback`: the pointer that is active. -/
def checkRollback : Except Err Pointer := do
  refuse faults.cancelled fileError
  requireNoRecovery disk
  match readPointer disk with
  | .error _ | .ok none => .error (err .invalidState)
  | .ok (some current) =>
    refuse (current.transferID ≠ transferID || current.previousDigest = []) (err .invalidState)
    refuse ((readVersion codec disk current.previousDigest).toOption.all fun found =>
      found.2.transferID ≠ current.previousTransferID) (err .invalidState)
    return current

/-- `Rollback`. -/
def rollback (disk : Disk) : Except Err Unit × Disk :=
  match checkRollback codec faults disk transferID with
  | .error e => (.error e, disk)
  | .ok current =>
    activate codec faults {
      version := formatVersion
      previous := some current
      next := {
        version := formatVersion
        transferID := current.previousTransferID
        digest := current.previousDigest } }
      (fun active => active.2 = ⟨current.previousTransferID, current.previousDigest⟩) disk

/-- The end of `RecoverInterruptedRollback`: the marker is removed. -/
def removeMarker : Except Err Unit × Disk :=
  match faults.cleanup with
  | .refused => (.error fileError, disk)
  | .late => (.error fileError, { disk with activation := none })
  | .done => (.ok (), { disk with activation := none })

/-- `RecoverInterruptedRollback`. -/
def recoverInterruptedRollback : Except Err Unit × Disk :=
  match disk.activation with
  | none => (.error fileError, disk)
  | some marker =>
    if (decide (marker.version = formatVersion) && marker.next.valid) = false then
      (.error (err .invalidState), disk)
    else match marker.previous with
      | none =>
        if faults.pointer = .refused then (.error fileError, disk)
        else removeMarker faults { disk with active := none }
      | some previous =>
        let moved := { disk with active := some previous }
        if (previous.valid && (readVersion codec disk previous.digest).toOption.any fun found =>
            found.2.transferID = previous.transferID) = false then
          (.error (err .invalidState), disk)
        else match faults.pointer with
          | .refused => (.error fileError, disk)
          | .late => (.error fileError, moved)
          | .done =>
            if ((readActive codec moved).toOption.any fun found =>
                found.2 = ⟨previous.transferID, previous.digest⟩) = false then
              (.error (err .invalidState), moved)
            else removeMarker faults moved

end

/-! ## Histories -/

/-- A call on the store, or an abort of the transfer. -/
inductive Call (P : Type) where
  | stage (transferID : GoString) (snapshot : Bundle P)
  | apply (transferID digest : GoString)
  /-- `Target.Abort`: it writes only the record of the transfer. -/
  | abort
  | rollback (transferID : GoString)
  | recover

/-- The files after a call. -/
def Call.perform : Call P → Disk → Disk
  | .stage transferID snapshot, disk => (CoordinatorState.stage codec faults transferID snapshot disk).2
  | .apply transferID digest, disk => (CoordinatorState.apply codec faults transferID digest disk).2
  | .abort, disk => disk
  | .rollback transferID, disk => (CoordinatorState.rollback codec faults transferID disk).2
  | .recover, disk => (recoverInterruptedRollback codec faults disk).2

/-- The transfer ids that a call uses for staging. -/
def Call.uses : Call P → List GoString
  | .stage transferID _ => [transferID]
  | _ => []

/-- The files that a sequence of calls can leave, with the transfer ids that it has used. -/
inductive Reachable (codec : Codec P) : Disk → List GoString → Prop where
  | start : Reachable codec {} []
  | call {disk : Disk} {used : List GoString} (faults : Faults) (call : Call P)
      (before : Reachable codec disk used) :
      Reachable codec (call.perform codec faults disk) (call.uses ++ used)

variable {codec : Codec P} {faults : Faults} {disk : Disk} {transferID digest : GoString}
variable {snapshot : Bundle P}

/-- The versions stay when a pointer is moved. -/
theorem activate_versions {marker : ActivationMarker} {meant : Bundle P × SnapshotReceipt → Bool} :
    (activate codec faults marker meant disk).2.versions = disk.versions := by
  simp only [activate]
  repeat' split
  all_goals rfl

theorem removeMarker_versions : (removeMarker faults disk).2.versions = disk.versions := by
  unfold removeMarker
  split <;> rfl

theorem apply_versions :
    (CoordinatorState.apply codec faults transferID digest disk).2.versions = disk.versions := by
  unfold CoordinatorState.apply
  split
  · rfl
  · rfl
  · exact activate_versions

theorem rollback_versions : (rollback codec faults transferID disk).2.versions = disk.versions := by
  unfold rollback
  split
  · rfl
  · exact activate_versions

theorem recover_versions :
    (recoverInterruptedRollback codec faults disk).2.versions = disk.versions := by
  simp only [recoverInterruptedRollback]
  repeat' split
  all_goals first | rfl | exact removeMarker_versions

/-- A stage leaves the versions, or adds one under its transfer id. -/
theorem stage_versions (codec : Codec P) :
    (stage codec faults transferID snapshot disk).2.versions = disk.versions ∨
      ∃ version, version.manifest.transferID = transferID ∧
        (stage codec faults transferID snapshot disk).2.versions =
          disk.versions.insert (codec.digest snapshot) version := by
  unfold stage
  simp only
  split
  · exact .inl rfl
  split
  · exact .inl rfl
  split
  · exact .inl rfl
  rename_i version hcandidate
  have htransfer := candidate_transferID hcandidate
  split
  · exact .inl rfl
  · exact .inr ⟨version, htransfer, rfl⟩
  · exact .inr ⟨version, htransfer, rfl⟩

/-- Every version has been staged under one of the transfer ids used. -/
theorem Reachable.transferID_mem (h : Reachable codec disk used)
    (hversion : disk.versions.lookup digest = some version) :
    version.manifest.transferID ∈ used := by
  induction h generalizing digest with
  | start => simp at hversion
  | @call disk used faults call before ih =>
    -- Only a stage changes the versions.
    have hkept : (call.perform codec faults disk).versions = disk.versions →
        version.manifest.transferID ∈ call.uses ++ used := by
      intro hsame
      rw [hsame] at hversion
      exact mem_append_right _ (ih hversion)
    cases call with
    | stage transferID snapshot =>
      rcases stage_versions codec with hsame | ⟨added, htransfer, hadded⟩
      · exact hkept hsame
      simp only [Call.perform, hadded, lookup_insert] at hversion
      split at hversion
      · cases hversion
        exact mem_append_left _ (mem_singleton.mpr htransfer)
      · exact mem_append_right _ (ih hversion)
    | apply transferID digest => exact hkept apply_versions
    | abort => exact hkept rfl
    | rollback transferID => exact hkept rollback_versions
    | recover => exact hkept recover_versions

/-! ## What can be staged -/

/-- The components of the snapshot can be written, and what is read from them is a valid snapshot
with the same digest. -/
structure Stageable (codec : Codec P) (snapshot : Bundle P) : Prop where
  writable : ∀ name ∈ componentNames, Writable codec snapshot name
  readable : ∃ found, codec.decoded snapshot = some found ∧
    validateSnapshot codec.toScreen found = .ok () ∧ codec.digest found = codec.digest snapshot

/-- A version that is found is not read as one of a transfer id that was not used. -/
theorem existing_of_unused (h : Reachable codec disk used) (hunused : transferID ∉ used)
    (receipt : SnapshotReceipt) : existing codec disk ⟨transferID, digest⟩ ≠ .ok receipt := by
  intro hok
  unfold existing at hok
  split at hok
  · cases hok
  rename_i snapshot found hread
  obtain ⟨hsame, -⟩ := check_eq_ok.mp hok
  have hfound : found = ⟨transferID, digest⟩ := by simpa [refuse_eq_ok] using hsame
  -- What is read has the transfer id of the manifest, which was used.
  replace hread := of_check hread
  split at hread
  · cases hread
  rename_i version hversion
  have hmem := h.transferID_mem hversion
  simp only [Version.read, bind_eq_ok, Unique.exists_iff, pure, Except.pure, ok.injEq,
    Prod.mk.injEq] at hread
  obtain ⟨-, decoded, -, -, -, -, hreceipt⟩ := hread
  rw [hfound, SnapshotReceipt.mk.injEq] at hreceipt
  exact hunused (hreceipt.1 ▸ hmem)

/-- The version that a stage installs is read as what it decodes to. -/
theorem read_written_iff (hid : safeID transferID) (hversion : snapshot.version = bundleVersion)
    (hwritable : ∀ name ∈ componentNames, Writable codec snapshot name) {found : Bundle P}
    {receipt : SnapshotReceipt} :
    (codec.written transferID snapshot).read codec (codec.digest snapshot) = .ok (found, receipt) ↔
      codec.decoded snapshot = some found ∧ validateSnapshot codec.toScreen found = .ok () ∧
        codec.digest found = codec.digest snapshot ∧
        receipt = ⟨transferID, codec.digest snapshot⟩ := by
  have hmanifest : ((codec.written transferID snapshot).manifest.components.entries.length) =
      componentNames.length := by
    rw [Codec.written, Map.length_update, length_files]
  have hchecks : ∀ decoded : Bundle P,
      (componentNames.foldlM (readComponent codec (codec.written transferID snapshot)) codec.zero =
        .ok decoded) ↔ componentNames.foldlM
          (fun decoded name => codec.decode name (codec.encoded snapshot name) decoded)
          codec.zero = some decoded := fun _ =>
    readComponents_written hwritable (List.Subset.refl _)
  simp only [Version.read, bind_eq_ok, Unique.exists_iff, refuse_eq_ok, hmanifest, hchecks, pure,
    Except.pure, ok.injEq, Prod.mk.injEq, Codec.decoded, map_eq_some_iff]
  simp only [Codec.written, hversion, hid, ne_eq, not_true_eq_false, decide_false, Bool.not_true,
    Bool.or_self, true_and, decide_not]
  constructor
  · rintro ⟨decoded, hdecoded, hfound, hdigest, rfl, rfl⟩
    exact ⟨⟨decoded, hdecoded, rfl⟩, hfound, by simpa using hdigest, rfl⟩
  rintro ⟨⟨decoded, hdecoded, rfl⟩, hfound, hdigest, rfl⟩
  exact ⟨decoded, hdecoded, hfound, by simpa using hdigest, rfl, rfl⟩

theorem reread_installed_iff :
    reread codec { disk with versions := disk.versions.insert (codec.digest snapshot) version }
        ⟨transferID, codec.digest snapshot⟩ = .ok ⟨transferID, codec.digest snapshot⟩ ↔
      ∃ found, version.read codec (codec.digest snapshot) =
        .ok (found, ⟨transferID, codec.digest snapshot⟩) := by
  simp only [reread, readVersion, validDigest_digest, AList.lookup_insert, bind_eq_ok,
    mapError_eq_ok, Unique.exists_iff, refuse_eq_ok, Bool.not_true, true_and, pure, Except.pure,
    and_true, Prod.exists, ne_eq, decide_not, not_eq_false', decide_eq_true_eq]
  constructor
  · rintro ⟨found, receipt, hread, rfl⟩
    exact ⟨found, hread⟩
  rintro ⟨found, hread⟩
  exact ⟨found, _, hread, rfl⟩

/-- In every history: a stage of a valid snapshot, under a transfer id that was not used, in which
nothing fails succeeds exactly if the id is safe, no activation is unfinished, no version has the
digest of the snapshot, and the snapshot is stageable. -/
theorem staged_anew_iff {used : List GoString} (hreach : Reachable codec disk used)
    (hunused : transferID ∉ used) (hvalid : validateSnapshot codec.toScreen snapshot = .ok ()) :
    (stage codec {} transferID snapshot disk).1 = .ok ⟨transferID, codec.digest snapshot⟩ ↔
      safeID transferID ∧ disk.activation = none ∧
        disk.versions.lookup (codec.digest snapshot) = none ∧ Stageable codec snapshot := by
  have hversion : snapshot.version = bundleVersion := by
    simp only [validateSnapshot, Bundle.validate, bind_eq_ok, Unique.exists_iff, refuse_eq_ok,
      decide_eq_false_iff_not, not_not] at hvalid
    exact hvalid.1.1
  have hcheck : checkStage codec {} disk transferID snapshot = .ok () ↔
      safeID transferID ∧ disk.activation = none := by
    simp only [checkStage, bind_eq_ok, Unique.exists_iff, refuse_eq_ok, hvalid, requireNoRecovery,
      not_eq_false', isSome_eq_false_iff, isNone_iff_eq_none, true_and]
  unfold stage
  simp only
  rcases hstart : checkStage codec {} disk transferID snapshot with e | u
  · rw [hstart] at hcheck
    simp only [reduceCtorEq, false_iff] at hcheck ⊢
    tauto
  obtain ⟨hid, hactivation⟩ := hcheck.mp hstart
  rw [and_iff_right hid, and_iff_right hactivation]
  cases hlookup : disk.versions.lookup (codec.digest snapshot) with
  | some version =>
    simp only [Option.isSome_some, if_true, existing_of_unused hreach hunused, reduceCtorEq,
      false_and]
  | none =>
    rw [and_iff_right rfl]
    simp only [Option.isSome_none, false_eq_true, if_false]
    cases hcandidate : candidate codec {} transferID snapshot with
    | error e =>
      simp only [reduceCtorEq, false_iff]
      intro hstageable
      have hwritten : candidate codec {} transferID snapshot = .ok _ :=
        candidate_ok_iff.mpr ⟨hstageable.writable, rfl⟩
      rw [hcandidate] at hwritten
      cases hwritten
    | ok version =>
      obtain ⟨hwritable, rfl⟩ := candidate_ok_iff.mp hcandidate
      simp only [reread_installed_iff, read_written_iff hid hversion hwritable, and_true]
      exact ⟨fun hreadable => ⟨hwritable, hreadable⟩, fun hstageable => hstageable.readable⟩

/-- A snapshot without an outbound operation. -/
def idleSnapshot (offset : UInt8) : Bundle Unit :=
  sampleSnapshot { initialized := true, nextUpdateID := offset.toNat }

/-- A codec that knows a snapshot by its offset. -/
def sampleCodec : Codec Unit where
  toScreen := emptyScreen
  sum256 data := Vector.replicate 32 (data.headD 0)
  canonical snapshot := [UInt8.ofNat snapshot.checkpoint.checkpoint.nextUpdateID.toNat]
  component _ snapshot := some [UInt8.ofNat snapshot.checkpoint.checkpoint.nextUpdateID.toNat]
  zero := idleSnapshot 0
  decode _ data _ := some (idleSnapshot (data.headD 0))

/-- The snapshots are stageable. -/
theorem idleSnapshot_stageable :
    Stageable sampleCodec (idleSnapshot 1) ∧ Stageable sampleCodec (idleSnapshot 2) := by
  constructor
  · exact ⟨fun _ _ => ⟨rfl, Nat.le_of_ble_eq_true rfl, rfl⟩, _, rfl, by decide +kernel, rfl⟩
  · exact ⟨fun _ _ => ⟨rfl, Nat.le_of_ble_eq_true rfl, rfl⟩, _, rfl, by decide +kernel, rfl⟩

/-- The files after the first snapshot was staged, under the first transfer id. -/
def stagedOnce : Disk := (stage sampleCodec {} (ofText "t1") (idleSnapshot 1) {}).2

/-- The transfer is aborted. -/
theorem reachable_stagedOnce : Reachable sampleCodec stagedOnce [ofText "t1"] :=
  .call {} .abort (.call {} (.stage (ofText "t1") (idleSnapshot 1)) .start)

/-- After the first transfer was aborted, another snapshot is staged. -/
theorem second_snapshot_staged :
    (stage sampleCodec {} (ofText "t2") (idleSnapshot 2) stagedOnce).1 =
      .ok ⟨ofText "t2", sampleCodec.digest (idleSnapshot 2)⟩ :=
  (staged_anew_iff reachable_stagedOnce (by decide) (by decide +kernel)).mpr
    ⟨by decide +kernel, rfl, rfl, idleSnapshot_stageable.2⟩

/-- The same snapshot is refused under a second id. -/
theorem aborted_snapshot_refused :
    Reachable sampleCodec stagedOnce [ofText "t1"] ∧ ofText "t2" ∉ [ofText "t1"] ∧
      validateSnapshot sampleCodec.toScreen (idleSnapshot 1) = .ok () ∧
      Stageable sampleCodec (idleSnapshot 1) ∧
      (stage sampleCodec {} (ofText "t2") (idleSnapshot 1) stagedOnce).1 =
        .error (err .invalidState) :=
  ⟨reachable_stagedOnce, by decide, by decide +kernel, idleSnapshot_stageable.1, by decide +kernel⟩

end Bria.CoordinatorState
