import Bria.ArtifactDelivery.Service

/-!
# Attempts are recorded before a file is sent

What a process knows of a final is what the manifest's file can be read as (`durable`). A call starts
from it and keeps its manifest equal to it: the next manifest advances the one before, and it is sent
only after it was saved. So a file that is sent has one more attempt on record than at any time
before, which tells its operation id from all earlier ones.

The calls keep these things whatever the final's links are. The file can be read only if the final's
id and the paths are valid UTF-8: other texts are replaced when they are encoded, and the ids of
the files no longer fit their paths.
-/

namespace Bria.ArtifactDelivery

open Go Files

section

variable (manifest : Option DeliveryManifest) (fileID : GoString)

/-- What the manifest's file is read as. -/
def durable (platform : Platform) (finalID : GoString) (file : ManifestFile) :
    Option DeliveryManifest :=
  (loadManifest platform finalID file).toOption.join

/-- The file of that id in a manifest that is read. -/
def fileOf : Option DeliveryFile :=
  manifest.bind fun manifest => manifest.files.find? fun file => file.fileID = fileID

/-- The attempts on record. -/
def attemptsOf : Nat := ((fileOf manifest fileID).map (·.attempts)).getD 0

/-- A receipt is on record. -/
def ConfirmedIn : Prop := ∃ file, fileOf manifest fileID = some file ∧ file.state = .confirmed

end

variable {platform : Platform} {finalID fileID code receiptID final : GoString}
  {file : ManifestFile} {receipt : Receipt} {attempt index : Nat} {allowed : Call → Prop}
variable {manifest next : DeliveryManifest}

/-! ## The trip through the file -/

theorem reencodeFile_reencodeFile (file : DeliveryFile) :
    reencodeFile (reencodeFile file) = reencodeFile file := by
  have hstate : reencodeState (reencodeState file.state) = reencodeState file.state := by
    cases file.state <;> simp [reencodeState, jsonText_jsonText]
  simp only [reencodeFile, jsonText_jsonText, hstate]

theorem reencode_reencode (manifest : DeliveryManifest) :
    reencode (reencode manifest) = reencode manifest := by
  simp only [reencode, jsonText_jsonText, map_map, Function.comp_def, reencodeFile_reencodeFile]

theorem reencode_eq_self_iff : reencode manifest = manifest ↔
    jsonText manifest.finalID = manifest.finalID ∧
      ∀ file ∈ manifest.files, reencodeFile file = file := by
  obtain ⟨finalID, files⟩ := manifest
  simp only [reencode, DeliveryManifest.mk.injEq, map_eq_self_iff]

theorem loadManifest_eq_ok {text : DeliveryManifest} {found : Option DeliveryManifest} :
    loadManifest platform finalID (some text) = .ok found ↔ (reencode text).finalID = finalID ∧
      (reencode text).validate platform = .ok () ∧ found = some (reencode text) := by
  simp only [loadManifest, check_eq_ok, refuse_eq_ok, decide_eq_false_iff_not, not_not,
    mapError_eq_ok, pure, Except.pure, ok.injEq, eq_comm (a := found)]

/-- What a file is read as. -/
theorem durable_eq_some : durable platform finalID file = some manifest ↔
    ∃ text, file = some text ∧ reencode text = manifest ∧ manifest.finalID = finalID ∧
      manifest.validate platform = .ok () := by
  unfold durable
  rcases file with _ | text
  · simp [loadManifest, Except.toOption]
  cases hcase : loadManifest platform finalID (some text) with
  | error e =>
    simp only [Except.toOption, Option.join_none, reduceCtorEq, some.injEq, false_iff]
    rintro ⟨_, rfl, rfl, hfinal, hvalid⟩
    have hok := loadManifest_eq_ok.mpr ⟨hfinal, hvalid, rfl⟩
    rw [hcase] at hok
    cases hok
  | ok found =>
    obtain ⟨hfinal, hvalid, rfl⟩ := loadManifest_eq_ok.mp hcase
    simp only [Except.toOption, Option.join_some, some.injEq]
    constructor
    · rintro rfl
      exact ⟨text, rfl, rfl, hfinal, hvalid⟩
    rintro ⟨_, rfl, rfl, -, -⟩
    rfl

theorem reencode_of_durable (h : durable platform finalID file = some manifest) :
    reencode manifest = manifest := by
  obtain ⟨text, -, rfl, -, -⟩ := durable_eq_some.mp h
  exact reencode_reencode text

theorem durable_of_reencode (h : reencode manifest = manifest) (hfinal : manifest.finalID = finalID)
    (hvalid : manifest.validate platform = .ok ()) :
    durable platform finalID (some manifest) = some manifest :=
  durable_eq_some.mpr ⟨manifest, rfl, h, hfinal, hvalid⟩

theorem reencode_of_change {change : DeliveryFile → Except Err DeliveryFile}
    (hmanifest : reencode manifest = manifest) (h : manifest.change fileID change = .ok next)
    (hchange : ∀ file changed, reencodeFile file = file → change file = .ok changed →
      reencodeFile changed = changed) : reencode next = next := by
  obtain ⟨hfinal, hfiles⟩ := reencode_eq_self_iff.mp hmanifest
  obtain ⟨file, changed, hfile, hchanged, hsame, hnext⟩ := change_ok h
  refine reencode_eq_self_iff.mpr ⟨hsame ▸ hfinal, ?_⟩
  rw [hnext]
  exact Table.forall_mem_written
    (hchange file _ (hfiles file (mem_of_find?_eq_some hfile)) hchanged) hfiles

/-- A file with other data comes back as it is if the new texts do. -/
theorem reencodeFile_of_texts {file changed : DeliveryFile} (hfile : reencodeFile file = file)
    (hid : changed.fileID = file.fileID) (hpath : changed.path = file.path)
    (hstate : reencodeState changed.state = changed.state)
    (hreceipt : jsonText changed.receiptID = changed.receiptID)
    (hcode : jsonText changed.failureCode = changed.failureCode) :
    reencodeFile changed = changed := by
  have hidText : jsonText file.fileID = file.fileID := congrArg DeliveryFile.fileID hfile
  have hpathText : jsonText file.path = file.path := congrArg DeliveryFile.path hfile
  rw [reencodeFile, hid, hpath, hidText, hpathText, hstate, hreceipt, hcode, ← hid, ← hpath]

/-- ASCII comes back as it is. -/
theorem jsonText_of_ascii {s : GoString} (h : ∀ b ∈ s, b < 0x80) : jsonText s = s :=
  (jsonText_eq_self_iff s).mpr (validString_of_ascii h)

theorem jsonText_of_failureCode (h : failureCodeValid code) : jsonText code = code := by
  refine jsonText_of_ascii fun b hb => ?_
  simp only [failureCodeValid, and_eq_true, all_eq_true] at h
  have hbyte := h.2 b hb
  simp only [failureCodeByte, or_eq_true, and_eq_true, decide_eq_true_eq,
    UInt8.le_iff_toNat_le] at hbyte
  rw [UInt8.lt_iff_toNat_lt]
  rcases hbyte with (((hbyte | hbyte) | rfl) | rfl) | rfl
  · simp at hbyte ⊢; omega
  · simp at hbyte ⊢; omega
  all_goals decide

theorem jsonText_of_receiptID (h : durableReceiptID platform receipt = some receiptID) :
    jsonText receiptID = receiptID := by
  unfold durableReceiptID at h
  split at h
  · cases h
  rename_i hvalid
  cases h
  have hpositive : 0 ≤ receipt.messageID := by
    simp only [or_eq_true, decide_eq_true_eq, not_or] at hvalid
    omega
  refine jsonText_of_ascii fun b hb => ?_
  simp only [mem_append] at hb
  rcases hb with ((hb | hb) | hb) | hb
  · exact ascii_of_all (by decide) hb
  · rw [← Int.toNat_of_nonneg hpositive] at hb
    exact ascii_formatInt_natCast hb
  · exact ascii_of_all (by decide) hb
  · exact ascii_of_hexDecodes (hexDecodes_hexText _) b hb

section

variable (hmanifest : reencode manifest = manifest)
include hmanifest

theorem reencode_of_markAttempt (h : manifest.markAttempt fileID = .ok next) :
    reencode next = next :=
  reencode_of_change hmanifest h fun file changed hfile hchanged => by
    obtain ⟨-, rfl⟩ := attempted_ok hchanged
    exact reencodeFile_of_texts hfile rfl rfl rfl rfl rfl

theorem reencode_of_markUnconfirmed (h : manifest.markUnconfirmed fileID code = .ok next) :
    reencode next = next :=
  reencode_of_change hmanifest h fun file changed hfile hchanged => by
    obtain ⟨-, hcode, rfl⟩ := failed_ok hchanged
    exact reencodeFile_of_texts hfile rfl rfl rfl rfl (jsonText_of_failureCode hcode)

theorem reencode_of_markConfirmed (hreceipt : durableReceiptID platform receipt = some receiptID)
    (h : manifest.markConfirmed fileID receiptID = .ok next) : reencode next = next :=
  reencode_of_change hmanifest h fun file changed hfile hchanged => by
    obtain ⟨-, rfl⟩ := received_ok hchanged
    exact reencodeFile_of_texts hfile rfl rfl rfl (jsonText_of_receiptID hreceipt) rfl

end

/-- What `Save` leaves in the file: what was there, or the manifest, which then is valid; and the
manifest can be read if `Save` succeeds. -/
theorem save_spec (platform : Platform) (faults : SaveFaults) (manifest : DeliveryManifest)
    (w : World) :
    (perform platform (.save manifest) w faults).2 = w ∧
        (perform platform (.save manifest) w faults).1 ≠ .ok () ∨
      manifest.validate platform = .ok () ∧
        (perform platform (.save manifest) w faults).2 = { w with file := some manifest } ∧
        ((perform platform (.save manifest) w faults).1 = .ok () →
          durable platform manifest.finalID (some manifest) = some manifest) := by
  simp only [perform, save]
  rcases hcheck : checkSave platform faults manifest with e | u
  · exact .inl ⟨rfl, nofun⟩
  have hrest := of_check hcheck
  obtain ⟨hvalid, -⟩ := check_eq_ok.mp hrest
  have hvalid := mapError_eq_ok.mp hvalid
  cases hwrite : faults.write with
  | refused => exact .inl ⟨rfl, nofun⟩
  | late => exact .inr ⟨hvalid, rfl, nofun⟩
  | done =>
    refine .inr ⟨hvalid, rfl, fun hok => ?_⟩
    replace hok := of_check hok
    obtain ⟨persisted, hload, hsame⟩ := bind_eq_ok.mp hok
    have hsame : persisted = some manifest := by simpa [refuse_eq_ok] using hsame
    rw [durable, mapError_eq_ok.mp hload, hsame]
    rfl

/-! ## What a call keeps -/

/-- What is on record about what has been sent: each has an operation id of its own form, an attempt
that is counted, and no two have the same attempt of the same file. -/
structure Logged (platform : Platform) (finalID : GoString) (w : World) : Prop where
  named : ∀ s ∈ w.sent, s.operationID = operationID s.fileID s.attempt
  hashed : ∀ s ∈ w.sent, s.fileID.length = 32
  positive : ∀ s ∈ w.sent, 1 ≤ s.attempt
  counted : ∀ s ∈ w.sent, s.attempt ≤ attemptsOf (durable platform finalID w.file) s.fileID
  distinct : (w.sent.map fun s => (s.fileID, s.attempt)).Nodup

/-- The file, if there is one, is read as what was encoded. -/
def Whole (platform : Platform) (finalID : GoString) (w : World) : Prop :=
  ∀ manifest, w.file = some manifest → durable platform finalID w.file = some manifest

/-- What holds from the start of a call on. The calls that are not explicit send only files without
attempts, and those with portable texts leave files that can be read. -/
structure Track (platform : Platform) (finalID : GoString) (explicit : Bool) (portable : Prop)
    (start w : World) : Prop where
  logged : Logged platform finalID w
  advances : ∀ manifest, durable platform finalID start.file = some manifest →
    ∃ next, durable platform finalID w.file = some next ∧ Advances manifest next
  sent : ∃ new, w.sent = new ++ start.sent ∧
    ∀ s ∈ new, ¬ ConfirmedIn (durable platform finalID start.file) s.fileID ∧
      (explicit = false → attemptsOf (durable platform finalID start.file) s.fileID = 0)
  whole : portable → Whole platform finalID start → Whole platform finalID w

variable {explicit : Bool} {portable : Prop} {start w : World}

theorem Track.refl (h : Logged platform finalID start) :
    Track platform finalID explicit portable start start where
  logged := h
  advances manifest hmanifest := ⟨manifest, hmanifest, .refl manifest⟩
  sent := ⟨[], rfl, nofun⟩
  whole _ h := h

/-- Attempts are never taken back. -/
theorem attemptsOf_le (h : Advances manifest next) (fileID : GoString) :
    attemptsOf (some manifest) fileID ≤ attemptsOf (some next) fileID := by
  cases hfile : manifest.files.find? fun file => file.fileID = fileID with
  | none => simp [attemptsOf, fileOf, hfile]
  | some file =>
    obtain ⟨changed, hchanged, hadvances⟩ := h.find? hfile
    simpa [attemptsOf, fileOf, hfile, hchanged] using hadvances.attempts

/-- Receipts are never taken back. -/
theorem confirmedIn_of_advances (h : Advances manifest next)
    (hconfirmed : ConfirmedIn (some manifest) fileID) : ConfirmedIn (some next) fileID := by
  obtain ⟨file, hfile, hstate⟩ := hconfirmed
  obtain ⟨changed, hchanged, hadvances⟩ := h.find? hfile
  rw [hadvances.confirmed hstate] at hchanged
  exact ⟨file, hchanged, hstate⟩

theorem Track.advance (h : Track platform finalID explicit portable start w)
    (hmanifest : durable platform finalID w.file = some manifest) (hnext : Advances manifest next)
    (hdurable : durable platform finalID (some next) = some next) :
    Track platform finalID explicit portable start { w with file := some next } where
  logged := by
    refine ⟨h.logged.named, h.logged.hashed, h.logged.positive, fun s hs => ?_, h.logged.distinct⟩
    have hcounted := h.logged.counted s hs
    rw [hmanifest] at hcounted
    rw [hdurable]
    exact Nat.le_trans hcounted (attemptsOf_le hnext s.fileID)
  advances first hfirst := by
    obtain ⟨found, hfound, hadvances⟩ := h.advances first hfirst
    obtain rfl : found = manifest := mem_unique hfound hmanifest
    exact ⟨next, hdurable, hadvances.trans hnext⟩
  sent := h.sent
  whole _ _ written hwritten := by
    obtain rfl : next = written := some.inj hwritten
    exact hdurable

/-- A file has been sent, whose attempt was counted since it was last sent. -/
theorem Track.send (h : Track platform finalID explicit portable start w)
    (hlength : fileID.length = 32) (hpositive : 1 ≤ attempt)
    (hcounted : attempt ≤ attemptsOf (durable platform finalID w.file) fileID)
    (hfresh : ∀ s ∈ w.sent, s.fileID = fileID → s.attempt < attempt)
    (hopen : ¬ ConfirmedIn (durable platform finalID start.file) fileID)
    (hfirst : explicit = false → attemptsOf (durable platform finalID start.file) fileID = 0) :
    Track platform finalID explicit portable start
      { w with sent := ⟨fileID, attempt, operationID fileID attempt⟩ :: w.sent } where
  logged := by
    refine ⟨forall_mem_cons.mpr ⟨rfl, h.logged.named⟩,
      forall_mem_cons.mpr ⟨hlength, h.logged.hashed⟩,
      forall_mem_cons.mpr ⟨hpositive, h.logged.positive⟩,
      forall_mem_cons.mpr ⟨hcounted, h.logged.counted⟩, ?_⟩
    refine nodup_cons.mpr ⟨fun hmem => ?_, h.logged.distinct⟩
    obtain ⟨s, hs, heq⟩ := mem_map.mp hmem
    obtain ⟨hid, hattempt⟩ : s.fileID = fileID ∧ s.attempt = attempt := Prod.mk.inj heq
    have hless := hfresh s hs hid
    omega
  advances := h.advances
  sent := by
    obtain ⟨new, hnew, hsent⟩ := h.sent
    exact ⟨_ :: new, by rw [hnew]; rfl, forall_mem_cons.mpr ⟨⟨hopen, hfirst⟩, hsent⟩⟩
  whole := h.whole

/-! ## Methods -/

section Methods

/-- The call's manifest is what the file is read as. -/
abbrev Known (platform : Platform) (finalID : GoString) (manifest : DeliveryManifest) (w : World) :
    Prop :=
  durable platform finalID w.file = some manifest

/-- What a part of a call ensures at its end, with the track since `start` kept all along. -/
abbrev Keeps {α : Type} (platform : Platform) (finalID : GoString) (explicit : Bool) (portable : Prop)
    (start : World) (part : Method α) (after : α → World → Prop) (w : World) : Prop :=
  Program.Fallible.Ensures (surroundings platform)
    (Track platform finalID explicit portable start) part after w

section

variable (h : Track platform finalID explicit portable start w)
  (hmanifest : Known platform finalID manifest w)
include h hmanifest

/-- A manifest that advances the one on record is saved. -/
theorem saveManifest_ensures (hnext : Advances manifest next) (hreencode : reencode next = next) :
    Keeps platform finalID explicit portable start (saveManifest next)
      (fun _ w' => Known platform finalID next w' ∧ w'.sent = w.sent) w := by
  refine .request h fun faults => ?_
  have hfinal : next.finalID = finalID := by
    obtain ⟨-, -, -, hfinal, -⟩ := durable_eq_some.mp hmanifest
    rw [hnext.finalID, hfinal]
  rcases save_spec platform faults next w with
    ⟨hworld, hfailed⟩ | ⟨hvalid, hworld, -⟩
  · simp only [surroundings, hworld]
    exact .check_end h fun _ hok => absurd hok hfailed
  have hdurable := durable_of_reencode hreencode hfinal hvalid
  simp only [surroundings, hworld]
  exact .check_end (h.advance hmanifest hnext hdurable) fun _ _ => ⟨hdurable, rfl⟩

theorem markAndSaveUnconfirmed_ensures :
    Keeps platform finalID explicit portable start (markAndSaveUnconfirmed manifest fileID code)
      (Known platform finalID) w := by
  refine .check h fun next hnext => ?_
  refine .bind (saveManifest_ensures h hmanifest (markUnconfirmed_advances hnext)
    (reencode_of_markUnconfirmed (reencode_of_durable hmanifest) hnext)) fun _ w' h' hsaved => ?_
  exact .pure h' hsaved.1

theorem settle_ensures {answer : Except SendError Receipt} :
    Keeps platform finalID explicit portable start (settle platform manifest fileID answer)
      (Known platform finalID) w := by
  unfold settle
  split
  · exact markAndSaveUnconfirmed_ensures h hmanifest
  split
  · exact markAndSaveUnconfirmed_ensures h hmanifest
  rename_i receiptID hreceipt
  refine .check h fun next hnext => ?_
  refine .bind (saveManifest_ensures h hmanifest (markConfirmed_advances hnext)
    (reencode_of_markConfirmed (reencode_of_durable hmanifest) hreceipt hnext))
    fun _ w' h' hsaved => ?_
  exact .pure h' hsaved.1

end

/-- What an attempt makes of the file at a place of a valid manifest. -/
theorem markAttempt_spec {file : DeliveryFile} (hvalid : manifest.validate platform = .ok ())
    (hfile : manifest.files[index]? = some file) (h : manifest.markAttempt file.fileID = .ok next) :
    attemptsOf (some manifest) file.fileID = file.attempts ∧
      attemptsOf (some next) file.fileID = file.attempts + 1 ∧
      (next.files[index]?.map (·.attempts)).getD 0 = file.attempts + 1 ∧
      (ConfirmedIn (some manifest) file.fileID → file.state = .confirmed) ∧
      file.fileID.length = 32 := by
  have hnodup := nodup_of_validate hvalid
  have hfound := Table.find?_of_mem hnodup (mem_of_getElem? hfile)
  have hlength : file.fileID.length = 32 := by
    rw [((validate_ok_iff.mp hvalid).2.1 file (mem_of_getElem? hfile)).named, stableFileID,
      length_hexText, List.length_take, Vector.length_toList]
    rfl
  obtain ⟨found, changed, hfound', hchanged, -, hnext⟩ := change_ok h
  obtain rfl : found = file := mem_unique hfound' hfound
  obtain ⟨-, hchanged⟩ := attempted_ok hchanged
  have hid : changed.fileID = found.fileID := by rw [hchanged]
  have hattempts : changed.attempts = found.attempts + 1 := by rw [hchanged]
  have hfoundNext : next.files.find? (·.fileID = found.fileID) = some changed := by
    rw [hnext]
    exact Table.find?_replaceFirst_self hfound (by simpa using hid)
  have hids : next.files.map (·.fileID) = manifest.files.map (·.fileID) := by
    rw [hnext]
    exact Table.map_replaceFirst hfound hid
  -- The file at the place is the one that is found by its id.
  have hplace : next.files[index]? = some changed := by
    have hid : (next.files[index]?).map (·.fileID) = some found.fileID := by
      rw [← getElem?_map, hids, getElem?_map, hfile]
      rfl
    obtain ⟨placed, hplaced, hsame⟩ := map_eq_some_iff.mp hid
    have hunique := Table.find?_of_mem (hids ▸ hnodup) (mem_of_getElem? hplaced)
    rw [hsame] at hunique
    rw [hplaced, ← hunique, hfoundNext]
  refine ⟨?_, ?_, ?_, ?_, hlength⟩
  · simp [attemptsOf, fileOf, hfound]
  · simp [attemptsOf, fileOf, hfoundNext, hattempts]
  · simp [hplace, hattempts]
  rintro ⟨confirmed, hconfirmed, hstate⟩
  obtain rfl : found = confirmed := mem_unique hfound hconfirmed
  exact hstate

section

variable (h : Track platform finalID explicit portable start w)
include h

theorem attemptFile_ensures {file : DeliveryFile} (hmanifest : Known platform finalID manifest w)
    (hfile : manifest.files[index]? = some file) (hopen : file.state ≠ .confirmed)
    (hfirst : explicit = false → file.attempts = 0) :
    Keeps platform finalID explicit portable start (attemptFile platform manifest index file)
      (Known platform finalID) w := by
  obtain ⟨-, -, -, -, hvalid⟩ := durable_eq_some.mp hmanifest
  refine .check h fun next hnext => ?_
  obtain ⟨hbefore, hafter, hplace, hconfirmed, hlength⟩ := markAttempt_spec hvalid hfile hnext
  refine .bind (saveManifest_ensures h hmanifest (markAttempt_advances hnext)
    (reencode_of_markAttempt (reencode_of_durable hmanifest) hnext))
    fun _ w1 h1 ⟨hsaved, hsent⟩ => ?_
  refine .request h1 fun (opened : Bool) => ?_
  change Program.Fallible.Ensures _ _ (if opened then _ else _) _ w1
  split
  · rw [hplace]
    -- The start knows no more of the file than the manifest before the attempt.
    have hstart : ¬ ConfirmedIn (durable platform finalID start.file) file.fileID ∧
        (explicit = false →
          attemptsOf (durable platform finalID start.file) file.fileID = 0) := by
      rcases hfound : durable platform finalID start.file with _ | first
      · exact ⟨nofun, fun _ => rfl⟩
      obtain ⟨found, hfound, hadvances⟩ := h.advances first hfound
      obtain rfl : found = manifest := mem_unique hfound hmanifest
      refine ⟨fun hc => hopen (hconfirmed (confirmedIn_of_advances hadvances hc)), fun hauto => ?_⟩
      have hle := attemptsOf_le hadvances file.fileID
      rw [hbefore, hfirst hauto] at hle
      exact Nat.le_zero.mp hle
    have hfresh : ∀ s ∈ w1.sent, s.fileID = file.fileID → s.attempt < file.attempts + 1 := by
      intro s hs hid
      have hcounted := h.logged.counted s (hsent ▸ hs)
      rw [hmanifest, hid, hbefore] at hcounted
      omega
    have hcounted : file.attempts + 1 ≤
        attemptsOf (durable platform finalID w1.file) file.fileID := by
      exact Nat.le_of_eq (by rw [hsaved, hafter])
    refine .bind (P := fun _ w2 => w2.file = w1.file) ?_ fun answer w2 h2 hsame => ?_
    · refine .request h1 fun answer => ?_
      exact .pure (h1.send hlength (Nat.le_add_left 1 _) hcounted hfresh hstart.1 hstart.2) rfl
    · exact settle_ensures h2 (by rwa [Known, hsame])
  · exact markAndSaveUnconfirmed_ensures h1 hsaved

theorem processFile_ensures (hmanifest : Known platform finalID manifest w) :
    Keeps platform finalID explicit portable start (processFile platform explicit manifest index)
      (Known platform finalID) w := by
  unfold processFile
  split
  · exact .pure h hmanifest
  rename_i file hfile
  split
  · exact .pure h hmanifest
  rename_i hopen
  split
  · exact .pure h hmanifest
  rename_i hskip
  refine attemptFile_ensures h hmanifest hfile hopen fun hauto => ?_
  simpa [hauto] using hskip

theorem process_ensures (hmanifest : Known platform finalID manifest w) :
    Keeps platform finalID explicit portable start (process platform explicit manifest)
      (fun _ _ => True) w := by
  refine .bind (.foldlM (fun _ _ _ _ h hmanifest => processFile_ensures h hmanifest) h hmanifest)
    fun _ _ h _ => .pure h trivial

end

theorem retry_ensures (h : Logged platform finalID w) :
    Keeps platform finalID true portable w (retry platform finalID) (fun _ _ => True) w := by
  refine .request (.refl h) fun fails => ?_
  refine .check (.refl h) fun found hfound => ?_
  replace hfound := of_check hfound
  replace hfound := of_check hfound
  rcases found with _ | manifest
  · exact .throw (.refl h)
  refine process_ensures (.refl h) ?_
  change durable platform finalID w.file = some manifest
  rw [durable, hfound]
  rfl

/-- The final's id and the paths are valid UTF-8. -/
def Portable (platform : Platform) (finalID : GoString) : Call → Prop
  | .deliverFinal final => validString finalID ∧
    ∀ links, extractFinalLinks platform final = .ok links →
      ∀ link ∈ links, validString (platform.clean link)
  | .retry => True

/-- A file of a new manifest. -/
def newFile (platform : Platform) (finalID path : GoString) : DeliveryFile where
  fileID := stableFileID platform finalID path
  path

/-- Every turn of the loop of `NewDeliveryManifest` adds a file with the path of its link. -/
theorem newDeliveryManifest_files {links : List GoString}
    (h : newDeliveryManifest platform finalID links = .ok manifest) :
    manifest.finalID = finalID ∧ ∀ file ∈ manifest.files, ∃ link ∈ links,
      file = newFile platform finalID (platform.clean link) := by
  have hrest := of_check h
  clear h
  obtain ⟨files, hfiles, hmanifest⟩ := bind_eq_ok.mp hrest
  clear hrest
  cases hmanifest
  refine ⟨rfl, ?_⟩
  suffices hloop : ∀ before : List DeliveryFile, links.foldlM (addLink platform finalID) before =
      .ok files → ∀ file ∈ files, file ∈ before ∨ ∃ link ∈ links,
        file = newFile platform finalID (platform.clean link) by
    intro file hfile
    exact (hloop [] hfiles file hfile).resolve_left not_mem_nil
  clear hfiles
  induction links with
  | nil =>
    intro before hfiles file hfile
    cases hfiles
    exact .inl hfile
  | cons link links ih =>
    intro before hfiles file hfile
    obtain ⟨middle, hmiddle, hfiles⟩ := bind_eq_ok.mp hfiles
    replace hmiddle := of_check hmiddle
    replace hmiddle := of_check hmiddle
    cases hmiddle
    rcases ih _ hfiles file hfile with hfile | ⟨other, hother, hfile⟩
    · rcases mem_append.mp hfile with hfile | hfile
      · exact .inl hfile
      · exact .inr ⟨link, mem_cons_self, mem_singleton.mp hfile⟩
    · exact .inr ⟨other, mem_cons_of_mem _ hother, hfile⟩

/-- A new file comes back as it is if its path does. -/
theorem reencodeFile_new_iff {path : GoString} :
    reencodeFile (newFile platform finalID path) = newFile platform finalID path ↔
      validString path := by
  have hid : jsonText (stableFileID platform finalID path) = stableFileID platform finalID path :=
    jsonText_of_ascii (ascii_of_hexDecodes (hexDecodes_hexText _))
  have hnil : jsonText [] = [] := rfl
  simp only [reencodeFile, newFile, DeliveryFile.mk.injEq, hid, hnil, reencodeState, true_and, and_true,
    jsonText_eq_self_iff]

/-- A new manifest with valid texts comes back as it is. -/
theorem newDeliveryManifest_ok {links : List GoString}
    (h : newDeliveryManifest platform finalID links = .ok manifest) :
    manifest.finalID = finalID ∧ (validString finalID →
      (∀ link ∈ links, validString (platform.clean link)) → reencode manifest = manifest) := by
  obtain ⟨rfl, hfiles⟩ := newDeliveryManifest_files h
  refine ⟨rfl, fun hfinal hlinks => reencode_eq_self_iff.mpr
    ⟨(jsonText_eq_self_iff _).mpr hfinal, fun file hfile => ?_⟩⟩
  obtain ⟨link, hlink, rfl⟩ := hfiles file hfile
  exact reencodeFile_new_iff.mpr (hlinks link hlink)

theorem saveFirst_ensures (h : Logged platform finalID w) (hfile : w.file = none)
    (hfinal : manifest.finalID = finalID) (hreencode : portable → reencode manifest = manifest) :
    Keeps platform finalID explicit portable w (saveManifest manifest)
      (fun _ => Known platform finalID manifest) w := by
  refine .request (.refl h) fun faults => ?_
  have hnone : durable platform finalID w.file = none := by
    rw [hfile]
    rfl
  -- Nothing has been sent, for no attempt is on record.
  have hsent : w.sent = [] := by
    refine List.eq_nil_iff_forall_not_mem.mpr fun s hs => ?_
    have hcounted := h.counted s hs
    rw [hnone] at hcounted
    have hpositive := h.positive s hs
    exact absurd (Nat.le_trans hpositive hcounted) (Nat.not_succ_le_zero 0)
  rcases save_spec platform faults manifest w with
    ⟨hworld, hfailed⟩ | ⟨hvalid, hworld, hdurable⟩
  · simp only [surroundings, hworld]
    exact .check_end (.refl h) fun _ hok => absurd hok hfailed
  simp only [surroundings, hworld]
  refine .check_end ⟨?_, ?_, ⟨[], rfl, nofun⟩, ?_⟩ fun _ hok => hfinal ▸ hdurable hok
  · constructor <;> simp [hsent]
  · intro first hfirst
    rw [hnone] at hfirst
    cases hfirst
  intro hportable _ written hequal
  obtain rfl : manifest = written := some.inj hequal
  exact durable_of_reencode (hreencode hportable) hfinal hvalid

theorem deliverFinal_ensures (h : Logged platform finalID w) :
    Keeps platform finalID false (Portable platform finalID (.deliverFinal final)) w
      (deliverFinal platform finalID final) (fun _ _ => True) w := by
  refine .check (.refl h) fun links hlinks => ?_
  refine .check (.refl h) fun expected hexpected => ?_
  obtain ⟨hfinal, hreencode⟩ := newDeliveryManifest_ok hexpected
  refine .request (.refl h) fun fails => ?_
  refine .check (.refl h) fun found hfound => ?_
  replace hfound := of_check hfound
  replace hfound := of_check hfound
  cases found with
  | none =>
    have hfile : w.file = none := by
      rcases hcase : w.file with _ | text
      · rfl
      rw [hcase] at hfound
      replace hfound := of_check hfound
      replace hfound := of_check hfound
      cases hfound
    refine .bind (saveFirst_ensures h hfile hfinal fun hportable =>
      hreencode hportable.1 (hportable.2 links hlinks)) fun _ w' h' hsaved => ?_
    exact process_ensures h' hsaved
  | some manifest =>
    have hmanifest : Known platform finalID manifest w := by
      rw [Known, durable, hfound]
      rfl
    refine .check (.refl h) fun _ _ => ?_
    exact process_ensures (.refl h) hmanifest

theorem Track.trans {w1 w2 : World} (h : Track platform finalID true portable w w1)
    (h' : Track platform finalID explicit portable w1 w2) :
    Track platform finalID true portable w w2 where
  logged := h'.logged
  advances manifest hmanifest := by
    obtain ⟨middle, hmiddle, hfirst⟩ := h.advances manifest hmanifest
    obtain ⟨next, hnext, hsecond⟩ := h'.advances middle hmiddle
    exact ⟨next, hnext, hfirst.trans hsecond⟩
  sent := by
    obtain ⟨new, hnew, hopen⟩ := h.sent
    obtain ⟨later, hlater, hopen'⟩ := h'.sent
    refine ⟨later ++ new, by rw [hlater, hnew, append_assoc], fun s hs => ⟨?_, nofun⟩⟩
    rcases mem_append.mp hs with hs | hs
    · intro hconfirmed
      refine (hopen' s hs).1 ?_
      obtain ⟨file, hfile, hstate⟩ := hconfirmed
      rcases hdurable : durable platform finalID w.file with _ | manifest
      · rw [hdurable] at hfile
        cases hfile
      obtain ⟨middle, hmiddle, hadvances⟩ := h.advances manifest hdurable
      rw [hmiddle]
      exact confirmedIn_of_advances hadvances ⟨file, hdurable ▸ hfile, hstate⟩
    · exact (hopen s hs).1
  whole hportable hwhole := h'.whole hportable (h.whole hportable hwhole)

/-- Every history keeps track. -/
theorem History.track {w' : World} (h : Logged platform finalID w)
    (hrun : History platform finalID allowed w w') :
    Track platform finalID true (∀ call, allowed call → Portable platform finalID call) w
      w' := by
  induction hrun with
  | refl => exact .refl h
  | @call w1 w2 call hallowed _ reaches ih =>
    cases call with
    | deliverFinal final =>
      have hcall := (deliverFinal_ensures ih.logged).reaches reaches
      exact ih.trans { hcall with whole := fun hportable => hcall.whole (hportable _ hallowed) }
    | retry => exact ih.trans ((retry_ensures ih.logged).reaches reaches)

end Methods

/-! ## Deliveries -/

/-- An operation id tells the file and the attempt. -/
theorem operationID_injective {fileID' : GoString} {attempt' : Nat} (hlength : fileID.length = 32)
    (hlength' : fileID'.length = 32)
    (h : operationID fileID attempt = operationID fileID' attempt') :
    fileID = fileID' ∧ attempt = attempt' := by
  unfold operationID at h
  rw [append_assoc, append_assoc, append_assoc, append_assoc] at h
  have hrest := List.append_cancel_left h
  obtain ⟨hid, hrest⟩ := List.append_inj hrest (hlength.trans hlength'.symm)
  exact ⟨hid, formatInt_natCast_injective (List.append_cancel_left hrest)⟩

/-- In every history of calls for one final, any of which may be cut off: no two files are sent with
the same operation id; a file with a receipt on record is not sent any more; `DeliverFinal` sends
only files without an attempt on record when it starts; and if the final's id and the paths are valid
UTF-8, the file holds a valid manifest that is read as it was saved, with the same files in the same
order from then on. -/
theorem deliveries_recorded (platform : Platform) (finalID : GoString) {allowed : Call → Prop}
    {w w' : World} (hbefore : History platform finalID allowed ⟨none, []⟩ w)
    (hafter : History platform finalID allowed w w') :
    (w.sent.map (·.operationID)).Nodup ∧
      (∃ new, w'.sent = new ++ w.sent ∧
        ∀ s ∈ new, ¬ ConfirmedIn (durable platform finalID w.file) s.fileID) ∧
      (∀ final w₁, Program.Reaches (surroundings platform)
          (deliverFinal platform finalID final) w w₁ →
        ∃ new, w₁.sent = new ++ w.sent ∧
          ∀ s ∈ new, attemptsOf (durable platform finalID w.file) s.fileID = 0) ∧
      ((∀ call, allowed call → Portable platform finalID call) → ∀ manifest, w.file = some manifest →
        manifest.validate platform = .ok () ∧
          durable platform finalID w.file = some manifest ∧
          ∃ next, w'.file = some next ∧ sameFiles manifest next) := by
  have hstart : Logged platform finalID ⟨none, []⟩ := ⟨nofun, nofun, nofun, nofun, .nil⟩
  have hfirst := hbefore.track hstart
  have hsecond := hafter.track hfirst.logged
  refine ⟨?_, ?_, ?_, ?_⟩
  · -- The operation ids are distinct because the attempts are.
    have hlogged := hfirst.logged
    refine pairwise_map.mpr ((pairwise_map.mp hlogged.distinct).imp_of_mem ?_)
    intro a b ha hb hdistinct hequal
    rw [hlogged.named a ha, hlogged.named b hb] at hequal
    obtain ⟨hid, hattempt⟩ :=
      operationID_injective (hlogged.hashed a ha) (hlogged.hashed b hb) hequal
    exact hdistinct (Prod.ext hid hattempt)
  · obtain ⟨new, hnew, hopen⟩ := hsecond.sent
    exact ⟨new, hnew, fun s hs => (hopen s hs).1⟩
  · intro final w₁ hreaches
    obtain ⟨new, hnew, hopen⟩ := ((deliverFinal_ensures hfirst.logged).reaches hreaches).sent
    exact ⟨new, hnew, fun s hs => (hopen s hs).2 rfl⟩
  intro hportable manifest hmanifest
  have hwhole := hfirst.whole hportable nofun
  have hdurable := hwhole manifest hmanifest
  obtain ⟨-, -, -, -, hvalid⟩ := durable_eq_some.mp hdurable
  refine ⟨hvalid, hdurable, ?_⟩
  obtain ⟨next, hnext, hadvances⟩ := hsecond.advances manifest hdurable
  obtain ⟨text, htext, -, -, -⟩ := durable_eq_some.mp hnext
  obtain rfl : text = next :=
    some.inj ((hsecond.whole hportable hwhole text htext).symm.trans hnext)
  have hfiles : List.Forall₂ (· = ·) (manifest.files.map fun file => (file.fileID, file.path))
      (text.files.map fun file => (file.fileID, file.path)) := by
    rw [List.forall₂_map_left_iff, List.forall₂_map_right_iff]
    exact hadvances.files.imp fun _ _ h => Prod.ext h.fileID.symm h.path.symm
  rw [List.forall₂_eq_eq_eq] at hfiles
  exact ⟨text, htext, by simp [sameFiles, hadvances.finalID, hfiles]⟩

/-- A platform on which the sum of a text starts with the text. -/
def samplePlatform : Platform where
  sum256 := fun s => Vector.ofFn fun i => s.getD i.val 0
  clean := fun path => path
  isAbs := fun _ => true

/-- Surroundings in which nothing fails. -/
def faultless : (r : Request) → Choice r
  | .load _ => false
  | .save _ => {}
  | .openRegular _ => true
  | .send _ => (.ok ⟨1, ofText "file", ofText "unique"⟩, true)

/-- The world after a final was delivered. -/
def deliveredOnce (final : GoString) : World :=
  ((deliverFinal samplePlatform (ofText "final") final).play (surroundings samplePlatform)
    faultless ⟨none, []⟩).2

theorem deliveredOnce_history (h : allowed (.deliverFinal final)) :
    History samplePlatform (ofText "final") allowed ⟨none, []⟩ (deliveredOnce final) :=
  .call (.deliverFinal final) h (.refl _)
    (Program.runs_play (surroundings samplePlatform) faultless
      (deliverFinal samplePlatform (ofText "final") final) ⟨none, []⟩).reaches

/-- A file with a valid path is delivered, and its manifest is valid. -/
theorem delivered_manifest_valid :
    (deliveredOnce (ofText "<file:///a>")).sent.length = 1 ∧
      ∃ manifest, (deliveredOnce (ofText "<file:///a>")).file = some manifest ∧
        manifest.validate samplePlatform = .ok () := by
  have hsaved : (deliveredOnce (ofText "<file:///a>")).file.isSome := by decide +kernel
  obtain ⟨manifest, hmanifest⟩ := Option.isSome_iff_exists.mp hsaved
  have hhistory : History samplePlatform (ofText "final")
      (· = .deliverFinal (ofText "<file:///a>")) ⟨none, []⟩
      (deliveredOnce (ofText "<file:///a>")) := deliveredOnce_history rfl
  refine ⟨by decide +kernel, manifest, hmanifest,
    ((deliveries_recorded samplePlatform _ hhistory (.refl _)).2.2.2 ?_ _ hmanifest).1⟩
  rintro call rfl
  refine ⟨by decide, fun links hlinks link hlink => ?_⟩
  have hone : extractFinalLinks samplePlatform (ofText "<file:///a>") = .ok [ofText "/a"] := by
    decide +kernel
  obtain rfl := ok.inj (hone.symm.trans hlinks)
  obtain rfl := mem_singleton.mp hlink
  decide

/-- The manifest of a file whose path is not valid UTF-8 is saved, and cannot be read: no file of
the final is ever sent. -/
theorem undecodable_manifest_saved :
    History samplePlatform (ofText "final") (fun _ => True) ⟨none, []⟩
        (deliveredOnce (ofText "[x](file:///%FF)")) ∧
      (deliveredOnce (ofText "[x](file:///%FF)")).sent = [] ∧
      (deliveredOnce (ofText "[x](file:///%FF)")).file.map
          (fun saved => (reencode saved).validate samplePlatform) =
        some (.error (err .invalidDeliveryManifest)) :=
  ⟨deliveredOnce_history trivial, by decide +kernel, by decide +kernel⟩

/-! ## Links that are extracted -/

/-- The manifest that a final gets. -/
def finalManifest (platform : Platform) (finalID final : GoString) :
    Except Err DeliveryManifest := do
  newDeliveryManifest platform finalID (← Files.extractFinalLinks platform final)

/-- A `Save` that passes its checks, and in which no file operation fails, succeeds and gives `Load`
the manifest of a final if and only if the final's id and the paths are valid UTF-8. -/
theorem final_manifest_survives_iff (h : finalManifest platform finalID final = .ok manifest)
    {faults : SaveFaults} (hchecks : checkSave platform faults manifest = .ok ())
    (hwrite : faults.write = .done) (hread : faults.unread = false) (file : ManifestFile) :
    (save platform faults manifest file).1 = .ok () ∧
        load platform finalID false (save platform faults manifest file).2 = .ok (some manifest) ↔
      validString finalID ∧ ∀ file ∈ manifest.files, validString file.path := by
  obtain ⟨links, -, hmanifest⟩ := bind_eq_ok.mp h
  obtain ⟨rfl, hfiles⟩ := newDeliveryManifest_files hmanifest
  obtain ⟨hid, hvalid⟩ := check_eq_ok.mp hchecks
  obtain ⟨hvalid, -⟩ := check_eq_ok.mp hvalid
  have hloads : loadManifest platform manifest.finalID (some manifest) = .ok (some manifest) ↔
      reencode manifest = manifest := by
    rw [loadManifest_eq_ok]
    constructor
    · rintro ⟨-, -, hsame⟩
      exact (some.inj hsame).symm
    intro hsame
    rw [hsame]
    exact ⟨rfl, mapError_eq_ok.mp hvalid, rfl⟩
  have hverify : verifySave platform faults manifest = .ok () ↔ reencode manifest = manifest := by
    rw [← hloads, verifySave, hread, check_eq_ok, bind_eq_ok]
    simp only [refuse_eq_ok, mapError_eq_ok, decide_eq_false_iff_not, not_not, true_and]
    constructor
    · rintro ⟨_, hload, rfl⟩
      exact hload
    intro hload
    exact ⟨_, hload, rfl⟩
  have hload : load platform manifest.finalID false (some manifest) =
      loadManifest platform manifest.finalID (some manifest) := by
    rw [load, hid]
    rfl
  simp only [save, hchecks, hwrite]
  rw [hload, hverify, hloads, and_self, reencode_eq_self_iff, jsonText_eq_self_iff]
  refine and_congr_right fun _ => forall₂_congr fun file hfile => ?_
  obtain ⟨link, -, rfl⟩ := hfiles file hfile
  exact reencodeFile_new_iff

/-- A manifest with one new file. -/
def linkedManifest (path : GoString) : DeliveryManifest where
  finalID := ofText "final"
  files := [newFile samplePlatform (ofText "final") path]

/-- A path that is valid UTF-8 survives. -/
theorem plain_path_survives :
    (save samplePlatform {} (linkedManifest (ofText "/a")) none).1 = .ok () ∧
      load samplePlatform (ofText "final") false
          (save samplePlatform {} (linkedManifest (ofText "/a")) none).2 =
        .ok (some (linkedManifest (ofText "/a"))) := by
  have hmanifest : finalManifest samplePlatform (ofText "final") (ofText "<file:///a>") =
      .ok (linkedManifest (ofText "/a")) := by decide +kernel
  have hchecks : checkSave samplePlatform {} (linkedManifest (ofText "/a")) = .ok () := by
    decide +kernel
  exact (final_manifest_survives_iff hmanifest hchecks rfl rfl none).mpr ⟨by decide, by decide⟩

/-- A path with an escaped byte that is not valid UTF-8: `Save` replaces the file and then fails, and
so does `Load`. -/
theorem escaped_path_replaced :
    let saved := save samplePlatform {} (linkedManifest [0x2F, 0xFF]) none
    finalManifest samplePlatform (ofText "final") (ofText "[x](file:///%FF)") =
        .ok (linkedManifest [0x2F, 0xFF]) ∧
      saved.2 = some (linkedManifest [0x2F, 0xFF]) ∧ saved.1.isOk = false ∧
      (load samplePlatform (ofText "final") false saved.2).isOk = false := by
  decide +kernel

end Bria.ArtifactDelivery
