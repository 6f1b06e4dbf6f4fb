import Bria.Storage.Steps

/-!
# The two indexes of the session store

The index of ids is the inverse of that of intents, also in a copy that is not of the file any more,
and a stored session keeps its identity if its texts are UTF-8 (`index_kept`). `json.Marshal` replaces
other bytes, and so the session has another identity when the file is read again, as it is after a
write that fails late (`workdir_changed`).

A renaming is stored unless the session is equal but for the source of its name, which `Equal` does
not compare.
-/

namespace Bria.Storage

open Go Domain TelegramState Machine Store

variable {lower digest : GoString → GoString} {e : Event} {store store' : Store} {m m' : Loaded}
  {intent : GoString} {ui : Option State} {file : Option Document}

/-! ## Inverse maps -/

theorem Inverse.swap (h : Inverse m) {current next : Session}
    (hcurrent : m.byIntent.lookup intent = some current) (hsame : sameIdentity current next) :
    Inverse { m.replaced intent next with telegramUI := ui } := by
  obtain ⟨hid, hintent, -⟩ := sameIdentity_eq_true.mp hsame
  refine ⟨fun intent' session hsession => ?_, fun id intent' => ?_⟩
  · simp only [Loaded.replaced, lookup_insert] at hsession
    split at hsession
    · rename_i heq
      rw [← some.inj hsession, ← hintent, heq]
      exact h.intent intent current hcurrent
    · exact h.intent intent' session hsession
  simp only [Loaded.replaced, lookup_insert]
  rw [h.id]
  by_cases heq : intent' = intent
  · rw [if_pos heq, heq, hcurrent]
    simp only [some.injEq, exists_eq_left', hid]
  · rw [if_neg heq]

theorem Inverse.erase (h : Inverse m) {session : Session}
    (hsession : m.byIntent.lookup intent = some session) :
    Inverse ⟨m.byIntent.erase intent, m.byID.erase session.id, ui⟩ := by
  refine ⟨fun intent' other hother => ?_, fun id intent' => ?_⟩
  · exact h.intent intent' other (of_lookup_erase hother).2
  rw [lookup_erase, lookup_erase]
  by_cases hid : id = session.id
  · -- The session was the only one with its id.
    rw [if_pos hid]
    refine iff_of_false (fun hnone => by cases hnone) ?_
    rintro ⟨other, hother, hotherID⟩
    split at hother
    · cases hother
    rename_i hne
    exact hne (h.unique hother hsession (hotherID.trans hid))
  rw [if_neg hid, h.id]
  refine exists_congr fun other => and_congr_left fun hotherID => ?_
  by_cases hintent : intent' = intent
  · rw [if_pos hintent, hintent, hsession]
    refine iff_of_false (fun heq => hid ?_) (fun hnone => by cases hnone)
    rw [some.inj heq, hotherID]
  · rw [if_neg hintent]

theorem Change.inverse (h : Change digest e m m') (hm : Inverse m) : Inverse m' := by
  cases h with
  | insert hintent hid _ => exact hm.insert hintent hid
  | swap hcurrent hsame _ => exact hm.swap hcurrent hsame
  | remove _ hcurrent hequal _ _ _ =>
    obtain ⟨hid, -⟩ := sameIdentity_eq_true.mp (sameIdentity_of_equal hequal).1
    rw [← hid]
    exact hm.erase hcurrent
  | present _ _ => exact hm.congr rfl rfl

/-! ## Identities -/

/-- The texts of the identity of a session are UTF-8. -/
structure Textual (s : Session) : Prop where
  id : validString s.id
  intentID : validString s.intentID
  computerID : validString s.computerID
  workdir : validString s.workdir

/-- A session under an intent has the identity of another. -/
def Keeps (intent : GoString) (session : Session) (m : Loaded) : Prop :=
  ∃ session', m.byIntent.lookup intent = some session' ∧ sameIdentity session session'

variable {intent : GoString} {session : Session}

/-- A session comes back from the file with its identity exactly if the texts are UTF-8. -/
theorem sameIdentity_restored_iff {restored : Session}
    (h : restoreSession session.reencode = .ok restored) :
    sameIdentity session restored ↔ Textual session := by
  obtain ⟨hid, hintent, hcomputer, hprovider, hworkdir, -⟩ := restored_eq h
  have hsame : session.provider = restored.provider := by
    -- Other providers are refused.
    obtain ⟨-, -, hvalid, -⟩ := restoreSession_eq_ok.mp h
    replace hvalid := of_check hvalid
    replace hvalid := of_check hvalid
    obtain ⟨hvalid, -⟩ := check_eq_ok.mp hvalid
    rw [hprovider]
    cases hp : session.provider with
    | codex => rfl
    | claude => rfl
    | other text => simp [Session.reencode, hp, Provider.reencode, refuse] at hvalid
  have htext : ∀ text : GoString, text = jsonText text ↔ validString text :=
    fun text => eq_comm.trans (jsonText_eq_self_iff text)
  rw [sameIdentity_eq_true, hid, hintent, hcomputer, hworkdir, htext, htext, htext, htext]
  constructor
  · rintro ⟨hid, hintent, hcomputer, -, hworkdir⟩
    exact ⟨hid, hintent, hcomputer, hworkdir⟩
  intro ht
  exact ⟨ht.id, ht.intentID, ht.computerID, hsame, ht.workdir⟩

/-- The identity is one of texts if an equal one is. -/
theorem Textual.congr {session' : Session} (h : Textual session)
    (hsame : sameIdentity session session') : Textual session' := by
  obtain ⟨hid, hintent, hcomputer, -, hworkdir⟩ := sameIdentity_eq_true.mp hsame
  exact ⟨hid ▸ h.id, hintent ▸ h.intentID, hcomputer ▸ h.computerID, hworkdir ▸ h.workdir⟩

/-- The way through the file keeps the identity of a session. -/
theorem Keeps.trip {activity : GoString → Int} (htextual : Textual session)
    (hintent : session.intentID = intent) (h : Keeps intent session m)
    (hread : readSessionFile lower activity (encode m) = .ok m') : Keeps intent session m' := by
  obtain ⟨current, hcurrent, hsame⟩ := h
  obtain ⟨restored, hrestored, hlookup⟩ := readSessionFile_session hread hcurrent
  have hcurrentTextual := htextual.congr hsame
  have hsame' := (sameIdentity_restored_iff hrestored).mpr hcurrentTextual
  have hkey : jsonText current.intentID = intent := by
    rw [(jsonText_eq_self_iff _).mpr hcurrentTextual.intentID, ← hintent]
    exact (sameIdentity_eq_true.mp hsame).2.1.symm
  exact ⟨restored, hkey ▸ hlookup, sameIdentity_trans hsame hsame'⟩

theorem Keeps.grows (h : Keeps intent session m) (hgrows : Grows m m') :
    Keeps intent session m' := by
  obtain ⟨current, hcurrent, hsame⟩ := h
  exact ⟨current, hgrows.session _ _ hcurrent, hsame⟩

/-- The event is a call to delete the session under an intent. -/
def Event.Deletes (intent : GoString) : Event → Prop
  | .call op _ => ∃ expected, op.deletes = some expected ∧ expected.intentID = intent
  | .reopen _ => False

/-- Every change keeps the identity of a session that is not to be deleted. -/
theorem Keeps.change (h : Keeps intent session m) (hchange : Change digest e m m')
    (hkept : ¬e.Deletes intent) : Keeps intent session m' := by
  obtain ⟨current, hcurrent, hsame⟩ := h
  cases hchange with
  | insert hintent hid _ =>
    refine ⟨current, ?_, hsame⟩
    simp only [Loaded.inserted, lookup_insert]
    rw [if_neg]
    · exact hcurrent
    rintro rfl
    rw [hintent] at hcurrent
    cases hcurrent
  | @swap _ _ intent' current' next _ hcurrent' hsame' _ =>
    simp only [Keeps, Loaded.replaced, lookup_insert]
    by_cases hintent : intent = intent'
    · rw [hintent, hcurrent'] at hcurrent
      obtain rfl := some.inj hcurrent
      exact ⟨next, if_pos hintent, sameIdentity_trans hsame hsame'⟩
    · exact ⟨current, by rw [if_neg hintent]; exact hcurrent, hsame⟩
  | remove hop _ _ _ _ _ =>
    refine ⟨current, ?_, hsame⟩
    rw [lookup_erase, if_neg]
    · exact hcurrent
    rintro rfl
    exact hkept ⟨_, hop, rfl⟩
  | present _ _ => exact ⟨current, hcurrent, hsame⟩

/-! ## Runs -/

/-- What is read has every session with a textual identity that was there. -/
def Resembles (m m' : Loaded) : Prop :=
  ∀ intent session, m.byIntent.lookup intent = some session → session.intentID = intent →
    Textual session → Keeps intent session m'

/-- The store has inverse maps, and its file has what is in a fresh copy. -/
structure Indexed (lower : GoString → GoString) (s : Store) : Prop where
  inverse : Inverse s.memory
  agrees : Cached.Agrees (readSessionFile lower) Resembles s.toCached

/-- What the next operation will find in a store. -/
def Store.Shows (lower : GoString → GoString) (s : Store) (m : Loaded) : Prop :=
  Cached.Shows (readSessionFile lower) s.toCached m

theorem resembles_of_read {a a' : GoString → Int} (h : readSessionFile lower a file = .ok m)
    (h' : readSessionFile lower a' file = .ok m') : Resembles m m' := by
  intro intent session hsession _ _
  rw [← readSessionFile_byIntent h h'] at hsession
  exact ⟨session, hsession, sameIdentity_refl session⟩

/-- Every step of the file and its copy keeps the maps inverse and the file like the copy. -/
theorem indexed_cachedStep {c c' : Cached Loaded (Option Document)}
    (h : Cached.Step (readSessionFile lower) encode (Change digest e) Grows c c')
    (hc : Inverse c.memory ∧ Cached.Agrees (readSessionFile lower) Resembles c) :
    Inverse c'.memory ∧ Cached.Agrees (readSessionFile lower) Resembles c' := by
  refine ⟨h.memory (fun _ _ _ => readSessionFile_inverse) (fun _ _ => Change.inverse) hc.1,
    h.agrees (fun _ _ _ _ _ => resembles_of_read) ?_ ?_⟩
  · intro m a m' hm intent session hsession hintent htextual
    exact .trip htextual hintent ⟨session, hsession, sameIdentity_refl session⟩ hm
  intro m m' a m'' hgrows hm intent session hsession hintent htextual
  have hkeeps : Keeps intent session m := ⟨session, hsession, sameIdentity_refl session⟩
  exact .trip htextual hintent (hkeeps.grows hgrows) hm

theorem Indexed.step (h : Indexed lower store)
    (hstep : step lower digest e store = some store') : Indexed lower store' := by
  obtain ⟨hinverse, hagrees⟩ := Cached.keeps_of_steps (fun _ _ => indexed_cachedStep)
    (step_steps hstep) ⟨h.inverse, h.agrees⟩
  exact ⟨hinverse, hagrees⟩

theorem Indexed.opened {reading : Reading} (h : openSessionStore lower reading file = .ok store) :
    Indexed lower store := by
  obtain ⟨m, hread, h⟩ := bind_eq_ok.mp h
  obtain rfl := ok.inj h
  have hread := readVerified_eq_ok hread
  exact ⟨readSessionFile_inverse hread, fun _ _ _ hm' => resembles_of_read hread hm'⟩

/-- What an indexed store shows of a session holds for all that can be read of it. -/
theorem Indexed.holds (h : Indexed lower store) (hshows : store.Shows lower m)
    (hsession : m.byIntent.lookup intent = some session) (htextual : Textual session) :
    session.intentID = intent ∧
      Cached.Holds (readSessionFile lower) (Keeps intent session) store.toCached := by
  have hm : Inverse m := hshows.of_memory h.inverse fun _ _ _ => readSessionFile_inverse
  have hintent := hm.intent intent session hsession
  refine ⟨hintent, h.agrees.holds (fun _ _ _ _ _ => resembles_of_read) hshows ?_ fun m' hm' => ?_⟩
  · exact ⟨session, hsession, sameIdentity_refl session⟩
  · exact hm' intent session hsession hintent htextual

/-- Any steps of an event that is not to delete a session keep its identity. -/
theorem Indexed.kept_steps (h : Indexed lower store)
    (hsteps : Steps lower digest e store.toCached store'.toCached) (hshows : store.Shows lower m)
    (hsession : m.byIntent.lookup intent = some session) (htextual : Textual session)
    (hkept : ¬e.Deletes intent) (hshows' : store'.Shows lower m') : Keeps intent session m' := by
  obtain ⟨hintent, hholds⟩ := h.holds hshows hsession htextual
  refine Cached.Holds.shows (Cached.keeps_of_steps (fun c c' hstep hc => ?_) hsteps hholds) hshows'
  exact hstep.holds (fun _ _ _ hm hread => hm.trip htextual hintent hread)
    (fun _ _ hchange hm => hm.change hchange hkept)
    (fun _ _ _ _ hgrows hm hread => (hm.grows hgrows).trip htextual hintent hread) hc

/-- The event deletes the session under an intent: the session is as expected, its card is known to
be empty, and the file is replaced. -/
def Event.Removes (lower : GoString → GoString) (s : Store) (intent : GoString) : Event → Prop
  | .call op w => w.write.lands ∧ ∃ expected s' next receipt,
    op.deletes = some expected ∧ expected.intentID = intent ∧
      s.reload lower w.reading = .ok s' ∧
      planDelete expected true s' = .ok (.write next receipt true)
  | .reopen _ => False

/-- Every event but the deletion of a session keeps its identity. -/
theorem Indexed.kept (h : Indexed lower store)
    (hstep : Store.step lower digest e store = some store') (hshows : store.Shows lower m)
    (hsession : m.byIntent.lookup intent = some session) (htextual : Textual session)
    (hkept : ¬e.Removes lower store intent) (hshows' : store'.Shows lower m') :
    Keeps intent session m' := by
  by_cases hdeletes : e.Deletes intent
  · -- The call reads the file at most, as a call of `Load` does.
    cases e with
    | reopen reading => exact hdeletes.elim
    | call op w =>
      obtain ⟨expected, hop, hintent⟩ := hdeletes
      obtain rfl := some.inj hstep
      have hsteps : Steps lower digest (.call .load w) store.toCached
          (op.run lower digest w store).toCached := by
        refine run_steps_of_unwritten hop fun hlands s' next receipt hreload hplan => hkept ?_
        exact ⟨hlands, expected, s', next, receipt, hop, hintent, hreload, hplan⟩
      refine h.kept_steps hsteps hshows hsession htextual ?_ hshows'
      rintro ⟨_, hnone, -⟩
      cases hnone
  · exact h.kept_steps (step_steps hstep) hshows hsession htextual hdeletes hshows'

/-- A `PutStartingIfAbsent` for an intent that has a session returns it and writes nothing. -/
theorem putStartingIfAbsent_again {w : World} {existing : Session}
    (hcheck : checkPut w session = .ok ()) (hreload : store.reload lower w.reading = .ok store')
    (hexisting : store'.memory.byIntent.lookup session.intentID = some existing) :
    store.putStartingIfAbsent lower w session = (.ok (existing, false), store') := by
  simp only [putStartingIfAbsent, checked, hcheck, transact, hreload, planPut, hexisting]

/-- After any run of the store, whatever the file system does: the index of ids is the inverse of
that of intents; a `PutStartingIfAbsent` for an intent that has a session returns it and writes
nothing; and every further event but its deletion leaves a session with a textual identity under its
intent with that identity. -/
theorem index_kept {reading : Reading} {file : Option Document} {start s : Store}
    {run : List Event} (hopen : openSessionStore lower reading file = .ok start)
    (hrun : exec (step lower digest) run start = some s) :
    Inverse s.memory ∧
      (∀ w session s' existing, checkPut w session = .ok () →
        s.reload lower w.reading = .ok s' →
        s'.memory.byIntent.lookup session.intentID = some existing →
        s.putStartingIfAbsent lower w session = (.ok (existing, false), s')) ∧
      ∀ e s' m m' intent session, step lower digest e s = some s' → s.Shows lower m →
        m.byIntent.lookup intent = some session → Textual session →
        ¬e.Removes lower s intent → s'.Shows lower m' →
        ∃ session', m'.byIntent.lookup intent = some session' ∧ sameIdentity session session' := by
  have hindexed : Indexed lower s :=
    exec_invariant (fun _ _ _ hstep h => .step h hstep) hrun (Indexed.opened hopen)
  refine ⟨hindexed.inverse, fun w session s' existing => putStartingIfAbsent_again, ?_⟩
  intro e s' m m' intent session hstep hshows hsession htextual hkept hshows'
  exact hindexed.kept hstep hshows hsession htextual hkept hshows'

/-- A store without a file. -/
def emptyStore : Store := { memory := {}, file := none, fresh := true }

/-- A session whose first start has failed. -/
def awaiting (s : Session) : Session :=
  { s with status := .awaitingRecovery, stateChangedAt := ⟨1⟩, recoveryTarget := some .starting }

/-- The new session is put into the empty store. -/
def putOf (session : Session) : Event := .call (.putStartingIfAbsent session) {}

/-- The start fails, and so does the write, when the file is already replaced. -/
def failOf (session : Session) : Event :=
  .call (.compareAndSwap session (awaiting session)) { write := .late }

/-- A fresh store shows what it has in memory. -/
theorem Store.shows_memory {s : Store} (h : s.fresh) : s.Shows lower s.memory := by
  refine ⟨fun _ => rfl, fun hold => ?_⟩
  rw [h] at hold
  cases hold

/-- The session is stored, a second call returns it, and the late write keeps its identity. -/
theorem draft_kept :
    ∃ s s' session', exec (step id id) [putOf draft] emptyStore = some s ∧
      Inverse s.memory ∧ s.putStartingIfAbsent id {} draft = (.ok (draft, false), s) ∧
      step id id (failOf draft) s = some s' ∧
      s'.memory.byIntent.lookup draft.intentID = some session' ∧
      sameIdentity draft session' := by
  have hopen : openSessionStore id {} none = .ok emptyStore := rfl
  obtain ⟨s, hrun⟩ : ∃ s, exec (step id id) [putOf draft] emptyStore = some s := ⟨_, rfl⟩
  obtain ⟨s', hstep⟩ : ∃ s', step id id (failOf draft) s = some s' := ⟨_, rfl⟩
  obtain ⟨hinverse, hagain, hkept⟩ := index_kept hopen hrun
  obtain rfl := some.inj hrun
  obtain rfl := some.inj hstep
  obtain ⟨session', hsession', hsame⟩ := hkept _ _ _ _ draft.intentID draft hstep
    (shows_memory rfl) rfl ⟨rfl, rfl, rfl, rfl⟩ (by rintro ⟨-, _, _, _, _, hnone, -⟩; cases hnone)
    (shows_memory rfl)
  exact ⟨_, _, session', hrun, hinverse, hagain {} draft _ draft rfl rfl rfl, hstep, hsession', hsame⟩

/-- A session in a directory whose name is not UTF-8. -/
def strayed : Session := { draft with workdir := [0x2F, 0xFF] }

/-- The late write changes the working directory of the stored session. -/
theorem workdir_changed :
    openSessionStore id {} none = .ok emptyStore ∧
      ∃ s s' session', exec (step id id) [putOf strayed] emptyStore = some s ∧
        s.Shows id s.memory ∧ s.memory.byIntent.lookup strayed.intentID = some strayed ∧
        step id id (failOf strayed) s = some s' ∧ s'.Shows id s'.memory ∧
        s'.memory.byIntent.lookup strayed.intentID = some session' ∧
        session'.workdir = 0x2F :: replacement ∧ sameIdentity strayed session' = false := by
  refine ⟨rfl, _, _, _, rfl, shows_memory rfl, rfl, rfl, shows_memory rfl, rfl, rfl, rfl⟩

/-! ## Renaming -/

/-- A name without a source gets one. -/
theorem restoreName_eq_self_iff {s : Session} {source : SessionNameSource}
    (h : restoreName s = .ok source) :
    source = s.nameSource ↔ (s.nameSource = .unset → s.name = []) := by
  unfold restoreName at h
  split at h
  · rename_i hname
    replace h := of_check (of_check (of_check h))
    obtain rfl := ok.inj h
    by_cases hunset : s.nameSource = .unset <;> simp [hunset, hname]
  rename_i hname
  replace h := of_check h
  obtain rfl := ok.inj h
  exact iff_of_true rfl fun _ => not_not.mp hname

/-- A renamed session is equal to the one before if the name is, and has the source that was asked
for if a name has one. A session that waits for a recovery without a target gets one. -/
theorem rename_eq_ok {current next : Session} {name : GoString} {source : SessionNameSource}
    (h : current.rename name source = .ok next) :
    blank current.id = false ∧
      (next.equal current ↔ name = current.name ∧ restoreTarget current = current.recoveryTarget) ∧
      (next = { current with name, nameSource := source } ↔
        restoreTarget current = current.recoveryTarget ∧ (source = .unset → name = [])) := by
  obtain ⟨-, hblank, -, named, hnamed, rfl, -, -⟩ := restoreSession_eq_ok.mp h
  refine ⟨hblank, ?_, ?_⟩
  · simp only [Session.equal, decide_eq_true_eq, Session.mk.injEq, Session.snapshot, true_and]
    rfl
  rw [← restoreName_eq_self_iff hnamed, and_comm]
  simp only [Session.mk.injEq, Session.snapshot, true_and]
  rfl

/-- What `RenameSession` stores when it returns no error. The session has the assigned name and the
source that was asked for exactly if the name is new and the source is one, or neither changes:
`Equal` does not see a change of the source only. -/
theorem rename_takes_effect_iff {w : World} {id requested : GoString} {source : SessionNameSource}
    {answer : Session}
    (h : store.renameSession lower w id requested source = (.ok answer, store')) :
    ∃ s intent current name, store.reload lower w.reading = .ok s ∧
      s.memory.byID.lookup id = some intent ∧ s.memory.byIntent.lookup intent = some current ∧
      name = SessionLabel.unique lower s.memory.byIntent id requested ∧ store'.fresh ∧
      (∀ other, store'.memory.byIntent.lookup other =
        if other = intent then some answer else s.memory.byIntent.lookup other) ∧
      (answer = { current with name, nameSource := source } ↔
        restoreTarget current = current.recoveryTarget ∧
          if name = current.name then source = current.nameSource
          else source = .unset → name = []) := by
  unfold renameSession at h
  rw [checked_eq_ok (congrArg Prod.fst h)] at h
  obtain ⟨s, plan, hreload, hplan, hresult, hfresh⟩ := transact_eq_ok h
  obtain ⟨intent, next, hintent, hnext, rfl⟩ := planRename_eq_ok hplan
  obtain ⟨hblank, hequal, hwanted⟩ := rename_eq_ok hnext
  have hcurrent := Loaded.lookup_session hblank
  refine ⟨s, intent, _, _, hreload, hintent, hcurrent, rfl, hfresh, ?_⟩
  by_cases hsame : next.equal (s.memory.session intent)
  · -- Nothing is written.
    rw [if_pos hsame] at hresult
    obtain ⟨hmemory, rfl⟩ := Prod.mk.inj hresult
    obtain ⟨hname, htarget⟩ := hequal.mp hsame
    refine ⟨fun other => ?_, ?_⟩
    · rw [hmemory]
      split
      · rename_i heq
        rw [heq, hcurrent]
      · rfl
    rw [if_pos hname, hname]
    exact ⟨fun h => ⟨htarget, (congrArg Session.nameSource h).symm⟩, fun h => h.2 ▸ rfl⟩
  rw [if_neg hsame] at hresult
  obtain ⟨hmemory, rfl⟩ := Prod.mk.inj hresult
  refine ⟨fun other => by rw [hmemory, Loaded.replaced, lookup_insert], ?_⟩
  rw [hwanted]
  refine and_congr_right fun htarget => ?_
  rw [if_neg fun hname => hsame (hequal.mpr ⟨hname, htarget⟩)]

/-- A session with a name from its directory. -/
def work : Session := { draft with name := ofText "work", nameSource := .directory }

/-- A store with this session. -/
def workStore : Store := (emptyStore.putStartingIfAbsent id {} work).2

/-- A new name is stored with its source. -/
theorem work_renamed :
    ∃ answer s', workStore.renameSession id {} work.id (ofText "plan") .model = (.ok answer, s') ∧
      s'.memory.byIntent.lookup work.intentID =
        some { work with name := ofText "plan", nameSource := .model } := by
  refine ⟨_, _, rfl, ?_⟩
  obtain ⟨s, intent, current, name, hreload, hintent, hcurrent, rfl, -, hlookup, hiff⟩ :=
    rename_takes_effect_iff
      (show workStore.renameSession id {} work.id (ofText "plan") .model = (.ok _, _) from rfl)
  obtain rfl := ok.inj hreload
  obtain rfl := some.inj hintent
  obtain rfl := some.inj hcurrent
  exact (hlookup _).trans (congrArg some (hiff.mpr ⟨rfl, by decide⟩))

/-- The same name with another source is not. -/
theorem source_not_stored :
    ∃ s', workStore.renameSession id {} work.id work.name .model = (.ok work, s') ∧
      s'.memory.byIntent.lookup work.intentID = some work ∧ work.nameSource = .directory :=
  ⟨_, rfl, rfl, rfl⟩

end Bria.Storage
