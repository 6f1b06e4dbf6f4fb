import Bria.Base.Table
import Bria.Errors

/-!
# Delivery manifests

`files/manifest.go`: the files that one final answer refers to, and how far each of them has been
delivered. A file is known by an id that is made from the final's id and the path. A manifest changes
one file at a time (`Advances`): files keep their ids, paths and places, attempts are counted up, and
a confirmed file stays as it is.
-/

namespace Bria.Files

open Go

/-- What the operating system and SHA-256 leave open. -/
structure Platform where
  /-- `sha256.Sum256`. -/
  sum256 : GoString → Vector UInt8 32
  /-- `filepath.Clean`. -/
  clean : GoString → GoString
  /-- `filepath.IsAbs`. -/
  isAbs : GoString → Bool

/-- `DeliveryState`. -/
inductive DeliveryState where
  | pending
  | unconfirmed
  | confirmed
  | other (text : GoString)
  deriving DecidableEq

/-- `DeliveryFile`. -/
structure DeliveryFile where
  (fileID path : GoString)
  state : DeliveryState := .pending
  attempts : Nat := 0
  receiptID : GoString := []
  failureCode : GoString := []
  deriving DecidableEq

/-- `DeliveryManifest`. -/
structure DeliveryManifest where
  finalID : GoString
  files : List DeliveryFile
  deriving DecidableEq

/-- A character of a failure code. -/
def failureCodeByte (b : UInt8) : Bool :=
  (0x61 ≤ b && b ≤ 0x7A) || (0x30 ≤ b && b ≤ 0x39) || b = 0x5F || b = 0x2E || b = 0x2D

/-- `failureCodePattern.MatchString`. -/
def failureCodeValid (code : GoString) : Bool :=
  1 ≤ code.length && code.length ≤ 64 && code.all failureCodeByte

/-- Whether a final's id is one that a manifest may have. -/
def finalIDValid (finalID : GoString) : Bool := finalID ≠ [] && !finalID.contains 0

variable (platform : Platform) {file : DeliveryFile} {code receiptID : GoString}

/-- `stableFileID`. -/
def stableFileID (finalID path : GoString) : GoString :=
  hexText ((platform.sum256 (finalID ++ 0 :: path)).toList.take 16)

/-- One turn of the loop of `NewDeliveryManifest`. -/
def addLink (finalID : GoString) (files : List DeliveryFile) (link : GoString) :
    Except Err (List DeliveryFile) := do
  let path := platform.clean link
  refuse (!platform.isAbs path) (err .invalidDeliveryManifest)
  refuse (files.any fun file => file.path = path) (err .invalidDeliveryManifest)
  return files ++ [{ fileID := stableFileID platform finalID path, path }]

/-- `NewDeliveryManifest`. -/
def newDeliveryManifest (finalID : GoString) (links : List GoString) :
    Except Err DeliveryManifest := do
  refuse (!finalIDValid finalID) (err .invalidDeliveryManifest)
  let files ← links.foldlM (addLink platform finalID) []
  return ⟨finalID, files⟩

/-! ## Changes -/

/-- A change of the file with that id: what `find` returns is changed in place. -/
def DeliveryManifest.change (manifest : DeliveryManifest) (fileID : GoString)
    (change : DeliveryFile → Except Err DeliveryFile) : Except Err DeliveryManifest :=
  match manifest.files.find? fun file => file.fileID = fileID with
  | none => .error (err .unknownFile)
  | some file => do
    let changed ← change file
    return { manifest with files := Table.replaceFirst (·.fileID = fileID) changed manifest.files }

/-- The change of `MarkAttempt`. -/
def DeliveryFile.attempted (file : DeliveryFile) : Except Err DeliveryFile := do
  refuse (file.state = .confirmed || file.attempts = 0xFFFFFFFF) (err .invalidDeliveryManifest)
  return { file with
    attempts := file.attempts + 1, state := .pending, receiptID := [], failureCode := [] }

/-- The change of `MarkUnconfirmed`. -/
def DeliveryFile.failed (code : GoString) (file : DeliveryFile) : Except Err DeliveryFile := do
  refuse (file.state = .confirmed || file.attempts = 0 || !failureCodeValid code)
    (err .invalidDeliveryManifest)
  return { file with state := .unconfirmed, receiptID := [], failureCode := code }

section

variable (manifest : DeliveryManifest) (fileID receiptID : GoString) (file : DeliveryFile)

/-- The change of `MarkConfirmed`. -/
def DeliveryFile.received :
    Except Err DeliveryFile := do
  refuse (file.state = .confirmed || file.attempts = 0 || receiptID = [] ||
    256 < receiptID.length || receiptID.contains 0) (err .invalidDeliveryManifest)
  return { file with state := .confirmed, receiptID, failureCode := [] }

/-- `MarkAttempt`. -/
def DeliveryManifest.markAttempt : Except Err DeliveryManifest :=
  manifest.change fileID DeliveryFile.attempted

/-- `MarkUnconfirmed`. -/
def DeliveryManifest.markUnconfirmed (code : GoString) : Except Err DeliveryManifest :=
  manifest.change fileID (DeliveryFile.failed code)

/-- `MarkConfirmed`. -/
def DeliveryManifest.markConfirmed : Except Err DeliveryManifest :=
  manifest.change fileID (DeliveryFile.received receiptID)

/-! ## Validation -/

/-- The check of `Validate` on the state of a file. -/
def DeliveryFile.stateValid : Bool :=
  match file.state with
  | .pending => file.receiptID = [] && file.failureCode = []
  | .unconfirmed => file.attempts ≠ 0 && file.receiptID = [] && failureCodeValid file.failureCode
  | .confirmed => file.attempts ≠ 0 && file.receiptID ≠ [] && file.receiptID.length ≤ 256 &&
    !file.receiptID.contains 0 && file.failureCode = []
  | .other _ => false

/-- One turn of the loop of `Validate`, with the files before. -/
def scanFile (finalID : GoString) (seen : List DeliveryFile) (file : DeliveryFile) :
    Except Err (List DeliveryFile) := do
  refuse (!platform.isAbs file.path || file.path ≠ platform.clean file.path ||
    file.fileID ≠ stableFileID platform finalID file.path) (err .invalidDeliveryManifest)
  refuse (seen.any fun other => other.fileID = file.fileID) (err .invalidDeliveryManifest)
  refuse (seen.any fun other => other.path = file.path) (err .invalidDeliveryManifest)
  refuse (!file.stateValid) (err .invalidDeliveryManifest)
  return file :: seen

/-- `Validate`. -/
def DeliveryManifest.validate : Except Err Unit := do
  refuse (!finalIDValid manifest.finalID) (err .invalidDeliveryManifest)
  let _ ← manifest.files.foldlM (scanFile platform manifest.finalID) []

end

variable {platform} {manifest changed next : DeliveryManifest} {fileID : GoString}

/-- What `Validate` checks of a file by itself. -/
structure DeliveryFile.Valid (platform : Platform) (finalID : GoString) (file : DeliveryFile) :
    Prop where
  absolute : platform.isAbs file.path
  clean : platform.clean file.path = file.path
  named : file.fileID = stableFileID platform finalID file.path
  state : file.stateValid

theorem validate_ok_iff : manifest.validate platform = .ok () ↔
    finalIDValid manifest.finalID ∧
      (∀ file ∈ manifest.files, file.Valid platform manifest.finalID) ∧
      manifest.files.Pairwise fun a b => a.fileID ≠ b.fileID ∧ a.path ≠ b.path := by
  have hstep : ∀ (seen : List DeliveryFile) (file : DeliveryFile) (seen' : List DeliveryFile),
      scanFile platform manifest.finalID seen file = .ok seen' ↔
        file.Valid platform manifest.finalID ∧
          (∀ other ∈ seen, other.fileID ≠ file.fileID ∧ other.path ≠ file.path) ∧
          seen' = file :: seen := by
    intro seen file seen'
    simp only [scanFile, check_eq_ok, refuse_eq_ok, or_eq_false_iff, not_eq_false',
      decide_eq_false_iff_not, not_not, any_eq_false, decide_eq_true_eq, pure, Except.pure,
      ok.injEq]
    constructor
    · rintro ⟨⟨⟨habs, hclean⟩, hnamed⟩, hids, hpaths, hstate, rfl⟩
      exact ⟨⟨habs, hclean.symm, hnamed, hstate⟩, fun o ho => ⟨hids o ho, hpaths o ho⟩, rfl⟩
    rintro ⟨⟨habs, hclean, hnamed, hstate⟩, hfresh, rfl⟩
    exact ⟨⟨⟨habs, hclean.symm⟩, hnamed⟩, fun o ho => (hfresh o ho).1,
      fun o ho => (hfresh o ho).2, hstate, rfl⟩
  have hscan : ∀ seen, manifest.files.foldlM (scanFile platform manifest.finalID) [] = .ok seen ↔
      _ := fun seen => Table.scan_fresh_ok_iff hstep fun seen a b => forall_mem_cons
  rw [DeliveryManifest.validate, check_eq_ok, bind_eq_ok]
  simp only [refuse_eq_ok, not_eq_false', hscan]
  constructor
  · rintro ⟨hfinal, _, ⟨hvalid, hdistinct, -, -⟩, -⟩
    exact ⟨hfinal, hvalid, hdistinct⟩
  rintro ⟨hfinal, hvalid, hdistinct⟩
  exact ⟨hfinal, _, ⟨hvalid, hdistinct, fun _ _ => List.forall_mem_nil _, rfl⟩, rfl⟩

theorem nodup_of_validate (h : manifest.validate platform = .ok ()) :
    (manifest.files.map fun file => file.fileID).Nodup :=
  pairwise_map.mpr ((validate_ok_iff.mp h).2.2.imp fun hdistinct => hdistinct.1)

/-! ## What changes keep -/

/-- What a change keeps of a file. -/
structure FileAdvances (file changed : DeliveryFile) : Prop where
  fileID : changed.fileID = file.fileID
  path : changed.path = file.path
  attempts : file.attempts ≤ changed.attempts
  confirmed : file.state = .confirmed → changed = file

/-- What changes keep of a manifest: the same files in the same order. -/
structure Advances (manifest next : DeliveryManifest) : Prop where
  finalID : next.finalID = manifest.finalID
  files : List.Forall₂ FileAdvances manifest.files next.files

/-- A file that does not change. -/
theorem FileAdvances.refl (file : DeliveryFile) : FileAdvances file file where
  fileID := rfl
  path := rfl
  attempts := Nat.le_refl _
  confirmed _ := rfl

theorem FileAdvances.trans {a b c : DeliveryFile} (h : FileAdvances a b) (h' : FileAdvances b c) :
    FileAdvances a c where
  fileID := h'.fileID.trans h.fileID
  path := h'.path.trans h.path
  attempts := Nat.le_trans h.attempts h'.attempts
  confirmed hconfirmed := by
    have hb := h.confirmed hconfirmed
    rw [h'.confirmed (hb ▸ hconfirmed), hb]

/-- A manifest that does not change. -/
theorem Advances.refl (manifest : DeliveryManifest) : Advances manifest manifest where
  finalID := rfl
  files := List.forall₂_same.mpr fun file _ => .refl file

theorem Advances.trans (h : Advances manifest changed) (h' : Advances changed next) :
    Advances manifest next where
  finalID := h'.finalID.trans h.finalID
  files := Table.forall₂_trans .trans h.files h'.files

theorem Advances.find? (h : Advances manifest next)
    (hfile : manifest.files.find? (·.fileID = fileID) = some file) :
    ∃ changed, next.files.find? (·.fileID = fileID) = some changed ∧ FileAdvances file changed :=
  Table.find?_of_forall₂ h.files (fun a b hab => by rw [hab.fileID]) hfile

section

variable {change : DeliveryFile → Except Err DeliveryFile}
  (h : manifest.change fileID change = .ok next)
include h

theorem change_ok :
    ∃ file changed, manifest.files.find? (·.fileID = fileID) = some file ∧
      change file = .ok changed ∧ next.finalID = manifest.finalID ∧
      next.files = Table.replaceFirst (·.fileID = fileID) changed manifest.files := by
  unfold DeliveryManifest.change at h
  split at h
  · cases h
  rename_i file hfile
  obtain ⟨changed, hchanged, h⟩ := bind_eq_ok.mp h
  cases h
  exact ⟨file, changed, hfile, hchanged, rfl, rfl⟩

/-- A change that keeps what it has to of the file advances the manifest. -/
theorem change_advances
    (hchange : ∀ file changed, change file = .ok changed → FileAdvances file changed) :
    Advances manifest next := by
  obtain ⟨file, changed, hfile, hchanged, hfinal, hfiles⟩ := change_ok h
  refine ⟨hfinal, ?_⟩
  rw [hfiles]
  exact Table.forall₂_replaceFirst hfile (hchange file changed hchanged) fun b _ => .refl b

end

/-- An attempt is counted. -/
theorem attempted_ok {changed : DeliveryFile} (h : file.attempted = .ok changed) :
    file.state ≠ .confirmed ∧ changed = { file with
      attempts := file.attempts + 1, state := .pending, receiptID := [], failureCode := [] } := by
  obtain ⟨hrefused, h⟩ := check_eq_ok.mp h
  simp only [refuse_eq_ok, or_eq_false_iff, decide_eq_false_iff_not] at hrefused
  cases h
  exact ⟨hrefused.1, rfl⟩

theorem failed_ok {changed : DeliveryFile} (h : file.failed code = .ok changed) :
    file.state ≠ .confirmed ∧ failureCodeValid code ∧
      changed = { file with state := .unconfirmed, receiptID := [], failureCode := code } := by
  obtain ⟨hrefused, h⟩ := check_eq_ok.mp h
  simp only [refuse_eq_ok, or_eq_false_iff, decide_eq_false_iff_not, not_eq_false'] at hrefused
  cases h
  exact ⟨hrefused.1.1, hrefused.2, rfl⟩

/-- A receipt is noted. -/
theorem received_ok {changed : DeliveryFile} (h : file.received receiptID = .ok changed) :
    file.state ≠ .confirmed ∧
      changed = { file with state := .confirmed, receiptID, failureCode := [] } := by
  obtain ⟨hrefused, h⟩ := check_eq_ok.mp h
  simp only [refuse_eq_ok, or_eq_false_iff, decide_eq_false_iff_not] at hrefused
  cases h
  exact ⟨hrefused.1.1.1.1, rfl⟩

theorem markAttempt_advances (h : manifest.markAttempt fileID = .ok next) :
    Advances manifest next :=
  change_advances h fun file changed hchanged => by
    obtain ⟨hopen, rfl⟩ := attempted_ok hchanged
    exact ⟨rfl, rfl, le_succ _, fun hconfirmed => absurd hconfirmed hopen⟩

theorem markUnconfirmed_advances (h : manifest.markUnconfirmed fileID code = .ok next) :
    Advances manifest next :=
  change_advances h fun file changed hchanged => by
    obtain ⟨hopen, -, rfl⟩ := failed_ok hchanged
    exact ⟨rfl, rfl, Nat.le_refl _, fun hconfirmed => absurd hconfirmed hopen⟩

theorem markConfirmed_advances (h : manifest.markConfirmed fileID receiptID = .ok next) :
    Advances manifest next :=
  change_advances h fun file changed hchanged => by
    obtain ⟨hopen, rfl⟩ := received_ok hchanged
    exact ⟨rfl, rfl, Nat.le_refl _, fun hconfirmed => absurd hconfirmed hopen⟩

end Bria.Files
