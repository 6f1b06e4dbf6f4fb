import Bria.Storage.SessionStore

/-!
# What an operation does to the store

Every operation of the session store is a sequence of steps of its file and the copy in memory
(`step_steps`): readings, refused and late writes, and writes of one change of what is in memory. The
changes are listed by `Change`: a new session with an empty card, another state of a session with the
same identity, the deletion of a session whose card is known to be empty, and a change of the Telegram
state. An import and a checkpoint only add (`Grows`).
-/

namespace Bria.Storage

open Go Domain TelegramState Machine Store

/-! ## Sessions with the same identity -/

variable {s t : Session} {reading : Reading} {α : Type} {after : AfterFailure} {what : String}
  {id : GoString} {a : Unit} {op : Operation}

/-- What `sameIdentity` compares. -/
theorem sameIdentity_eq_true : sameIdentity s t ↔ s.id = t.id ∧ s.intentID = t.intentID ∧
    s.computerID = t.computerID ∧ s.provider = t.provider ∧ s.workdir = t.workdir := by
  simp only [sameIdentity, and_eq_true, beq_iff_eq, and_assoc]

theorem sameIdentity_refl (s : Session) : sameIdentity s s :=
  sameIdentity_eq_true.mpr ⟨rfl, rfl, rfl, rfl, rfl⟩

theorem sameIdentity_trans {u : Session} (h : sameIdentity s t)
    (h' : sameIdentity t u) : sameIdentity s u := by
  obtain ⟨hid, hintent, hcomputer, hprovider, hworkdir⟩ := sameIdentity_eq_true.mp h
  obtain ⟨hid', hintent', hcomputer', hprovider', hworkdir'⟩ := sameIdentity_eq_true.mp h'
  exact sameIdentity_eq_true.mpr ⟨hid.trans hid', hintent.trans hintent',
    hcomputer.trans hcomputer', hprovider.trans hprovider', hworkdir.trans hworkdir'⟩

/-- Equal sessions have the same identity and status. -/
theorem sameIdentity_of_equal (h : s.equal t) : sameIdentity s t ∧ s.status = t.status := by
  have heq : { s with nameSource := .unset } = { t with nameSource := .unset } := by
    simpa only [Session.equal, decide_eq_true_eq] using h
  have hid := congrArg Session.id heq
  have hintent := congrArg Session.intentID heq
  have hcomputer := congrArg Session.computerID heq
  have hprovider := congrArg Session.provider heq
  have hworkdir := congrArg Session.workdir heq
  have hstatus := congrArg Session.status heq
  exact ⟨sameIdentity_eq_true.mpr ⟨hid, hintent, hcomputer, hprovider, hworkdir⟩, hstatus⟩

/-- `RestoreSession` of a snapshot with other preferences or another name. -/
theorem sameIdentity_of_restoreSession (h : restoreSession s = .ok t) :
    sameIdentity s t ∧ s.status = t.status ∧ blank s.id = false := by
  obtain ⟨-, hid, -, source, -, rfl, -, -⟩ := restoreSession_eq_ok.mp h
  exact ⟨sameIdentity_eq_true.mpr ⟨rfl, rfl, rfl, rfl, rfl⟩, rfl, hid⟩

theorem blank_of_validateSessionValue (h : validateSessionValue s = .ok ()) :
    blank s.id = false := by
  obtain ⟨restored, hrestored, -⟩ := bind_eq_ok.mp h
  exact (sameIdentity_of_restoreSession hrestored).2.2

/-! ## Changes -/

/-- The session that an operation is to delete. -/
def Operation.deletes : Operation → Option Session
  | .deleteEmptyClosing expected => some expected
  | .deleteEmptyFailedStart expected => some expected
  | .deleteEmptyAwaitingRecovery expected => some expected
  | .deleteUnrecoverableAwaitingRecovery expected => some expected
  | _ => none

/-- What is in memory after an event in which a change was written. -/
inductive Change (digest : GoString → GoString) : Event → Loaded → Loaded → Prop where
  /-- A session that was not there. -/
  | insert {session new : Session} {w : World} {m : Loaded}
      (hintent : m.byIntent.lookup new.intentID = none) (hid : m.byID.lookup new.id = none)
      (hblank : blank new.id = false) :
      Change digest (.call (.putStartingIfAbsent session) w) m (m.inserted new)
  /-- Another state of a session. If it had work, it still has, or its card is no longer known to be
  empty. -/
  | swap {e : Event} {m : Loaded} {intent : GoString} {current next : Session} {ui : Option State}
      (hcurrent : m.byIntent.lookup intent = some current)
      (hsame : sameIdentity current next)
      (hui : ui = m.telegramUI ∧
          (hasWorkStatus current.status → hasWorkStatus next.status) ∨
        ui = m.telegramUI.map fun ui => withdrawn ui next.id) :
      Change digest e m { m.replaced intent next with telegramUI := ui }
  /-- The deletion of a session without work whose card is known to be empty. -/
  | remove {op : Operation} {w : World} {m : Loaded} {expected current : Session} {ui : State}
      (hop : op.deletes = some expected)
      (hcurrent : m.byIntent.lookup expected.intentID = some current)
      (hequal : current.equal expected) (hidle : hasWorkStatus expected.status = false)
      (hui : m.telegramUI = some ui) (hempty : provenEmpty ui expected.id) :
      Change digest (.call op w) m ⟨m.byIntent.erase expected.intentID,
        m.byID.erase expected.id,
        some (forget m.byID (m.byIntent.erase expected.intentID) expected.id ui.clone)⟩
  /-- A change of the Telegram state. -/
  | present {p : Presentation} {w : World} {m : Loaded} {ui : State}
      (hupdate : p.update digest w.now m m.currentUI = .ok ui) (hvalid : ui.validate = .ok ()) :
      Change digest (.call (.present p) w) m { m with telegramUI := some ui }

/-- More sessions, and everything else as it was. -/
structure Grows (m m' : Loaded) : Prop where
  session : ∀ intent session, m.byIntent.lookup intent = some session →
    m'.byIntent.lookup intent = some session
  telegramUI : m'.telegramUI = m.telegramUI

/-- Any number of steps of the file and its copy in an event. -/
abbrev Steps (lower digest : GoString → GoString) (e : Event) :
    Cached Loaded (Option Document) → Cached Loaded (Option Document) → Prop :=
  Relation.ReflTransGen (Cached.Step (readSessionFile lower) encode (Change digest e) Grows)

/-! ## The parts of an operation -/

variable {lower digest : GoString → GoString} {e : Event} {w : World} {store store' : Store}
  {m next : Loaded}

/-- A reload reads the file or does nothing, and afterwards the copy is fresh. -/
theorem reload_steps (h : store.reload lower reading = .ok store') :
    Steps lower digest e store.toCached store'.toCached ∧ store'.fresh := by
  unfold reload at h
  split at h
  · cases h
  obtain ⟨c, hc, h⟩ := bind_eq_ok.mp h
  obtain rfl := ok.inj h
  unfold Cached.reload at hc
  split at hc
  · rename_i hfresh
    obtain rfl := ok.inj hc
    exact ⟨.refl, hfresh⟩
  split at hc
  · rename_i m hread
    obtain rfl := ok.inj hc
    exact ⟨.single (.read hread), rfl⟩
  · cases hc

theorem fail_steps (after : AfterFailure) (e' : Err) (hfresh : store.fresh)
    (hwrite : w.write.lands → Change digest e store.memory next ∨ Grows store.memory next)
    (hfailed : w.write ≠ .done) :
    Steps lower digest e store.toCached
      (((store.persist w next).2.fail lower w after e' : Except Err α × Store).2.toCached) := by
  have hpersist : Steps lower digest e store.toCached (store.persist w next).2.toCached := by
    unfold persist Cached.write
    cases hw : w.write with
    | done => exact absurd hw hfailed
    | late => exact .single (.late hfresh (hwrite (by rw [hw]; rfl)))
    | refused =>
      cases hbeside : w.beside with
      | true =>
        rw [Bool.not_true, Bool.and_false]
        exact .single (.doubt _)
      | false =>
        simp only [Bool.not_false, Bool.and_true]
        exact .refl
  refine hpersist.trans ?_
  unfold fail
  rcases hreload : (store.persist w next).2.reload lower w.rereading with e'' | s
  · cases after <;> exact .refl
  have hsteps : Steps lower digest e (store.persist w next).2.toCached s.toCached :=
    (reload_steps hreload).1
  cases after with
  | keep => exact .refl
  | reload | reloadJoining => exact hsteps

/-- What an operation does after the reload. -/
theorem reloaded_steps {act : Store → Except Err α × Store}
    (h : ∀ s, store.reload lower w.reading = .ok s → s.fresh →
      Steps lower digest e s.toCached (act s).2.toCached) :
    Steps lower digest e store.toCached
      (match store.reload lower w.reading with
        | .error e' => (.error e', store)
        | .ok s => act s : Except Err α × Store).2.toCached := by
  rcases hreload : store.reload lower w.reading with e' | s
  · exact .refl
  obtain ⟨hsteps, hfresh⟩ : Steps lower digest e store.toCached s.toCached ∧ s.fresh :=
    reload_steps hreload
  exact hsteps.trans (h s hreload hfresh)

/-- An operation that writes nothing but a change. -/
theorem transact_steps {plan : Store → Except Err (Plan α)}
    (hplan : ∀ s next receipt a, w.write.lands → store.reload lower w.reading = .ok s →
      plan s = .ok (.write next receipt a) → Change digest e s.memory next) :
    Steps lower digest e store.toCached (store.transact lower w after what plan).2.toCached := by
  refine reloaded_steps fun s hreload hfresh => ?_
  rcases hdecide : plan s with e' | decision
  · exact .refl
  cases decision with
  | answer a => exact .refl
  | write next receipt a =>
    have hchange : w.write.lands → Change digest e s.memory next :=
      fun hlands => hplan s next receipt a hlands hreload hdecide
    by_cases hdone : w.write = .done
    · have hsaved := hchange (by rw [hdone]; rfl)
      simp only [persist, hdone, if_true, Cached.write]
      exact .single (.saved hfresh hsaved)
    simp only [persist, hdone, if_false]
    exact fail_steps after _ hfresh (fun hlands => .inl (hchange hlands)) hdone

/-- A write that only adds and is verified. -/
theorem persistVerified_steps {verifying : String} {accept : Loaded → Except Err Unit}
    (hfresh : store.fresh) (hgrows : Grows store.memory next) :
    Steps lower digest e store.toCached
      (store.persistVerified lower w after what verifying next accept).2.toCached := by
  unfold persistVerified
  by_cases hdone : w.write = .done
  · have hunread : Steps lower digest e store.toCached
        { store.toCached with file := encode next } := .single (.unread hfresh hgrows)
    simp only [persist, hdone, if_true, Cached.write, verify, readVerified]
    have hfile : { store.toCached with file := encode next, fresh := true } =
        { store.toCached with file := encode next } := by rw [← hfresh]
    rw [← hfile] at hunread
    refine hunread.trans ?_
    cases w.rereading.fault with
    | some e' => exact .refl
    | none =>
      rcases hread : readSessionFile lower w.rereading.activity (encode next) with e' | m
      · exact .refl
      dsimp only
      cases accept m with
      | error e' => exact .refl
      | ok _ => exact .single (.read hread)
  · simp only [persist, hdone, if_false]
    exact fail_steps after _ hfresh (fun _ => .inr hgrows) hdone

theorem checked_steps {check : Except Err Unit} {action : Store → Except Err α × Store}
    (h : check = .ok () → Steps lower digest e store.toCached (action store).2.toCached) :
    Steps lower digest e store.toCached (store.checked check action).2.toCached := by
  cases hcheck : check with
  | error e' => exact .refl
  | ok _ => exact h hcheck

/-- An operation that succeeds passed its checks. -/
theorem checked_eq_ok {check : Except Err Unit} {action : Store → Except Err α × Store} {a : α}
    (h : (store.checked check action).1 = .ok a) : store.checked check action = action store := by
  cases check with
  | error e => cases h
  | ok _ => rfl

/-- A failed write returns an error. -/
theorem fail_ne_ok {e : Err} {a : α} (h : (store.fail lower w after e).1 = .ok a) : False := by
  unfold fail at h
  cases after with
  | keep => cases h
  | reload => cases h
  | reloadJoining =>
    cases hreload : store.reload lower w.rereading with
    | ok s | error e' => rw [hreload] at h; cases h

/-- What is in memory after a plan that succeeds, and what it returns. -/
def Plan.result (m : Loaded) : Plan α → Loaded × α
  | .answer a => (m, a)
  | .write next _ a => (next, a)

/-- An operation that succeeds has carried out its plan for what it read. -/
theorem transact_eq_ok {plan : Store → Except Err (Plan α)} {a : α}
    (h : store.transact lower w after what plan = (.ok a, store')) :
    ∃ s decision, store.reload lower w.reading = .ok s ∧ plan s = .ok decision ∧
      (store'.memory, a) = decision.result s.memory ∧ store'.fresh := by
  unfold transact at h
  rcases hreload : store.reload lower w.reading with e | s
  · rw [hreload] at h; cases h
  rw [hreload] at h
  dsimp only at h
  rcases hplan : plan s with e | decision
  · rw [hplan] at h; cases h
  rw [hplan] at h
  refine ⟨s, decision, rfl, hplan, ?_⟩
  cases decision with
  | answer b =>
    cases h
    have hsteps : Steps lower id (.reopen {}) _ _ ∧ _ := reload_steps hreload
    exact ⟨rfl, hsteps.2⟩
  | write next receipt b =>
    by_cases hdone : w.write = .done
    · simp only [persist, hdone, if_true, Cached.write] at h
      cases h
      exact ⟨rfl, rfl⟩
    simp only [persist, hdone, if_false] at h
    exact (fail_ne_ok (congrArg Prod.fst h)).elim

/-! ## The plans -/

variable {receipt : Option Session}

/-- The name that a new session gets changes nothing else. -/
theorem named_eq_ok {sessions : Map GoString Session} (h : named lower sessions s = .ok t) :
    sameIdentity s t := by
  unfold named at h
  split at h
  · obtain ⟨hsame, -⟩ := sameIdentity_of_restoreSession (mapError_eq_ok.mp h)
    exact hsame
  obtain rfl := ok.inj h
  exact sameIdentity_refl s

/-- `PutStartingIfAbsent` inserts a session that is not there. -/
theorem planPut_change {a : Session × Bool} (hblank : blank s.id = false)
    (h : planPut lower s store = .ok (.write next receipt a)) :
    Change digest (.call (.putStartingIfAbsent s) w) store.memory next := by
  unfold planPut at h
  split at h
  · cases h
  rename_i hintent
  split at h
  · cases h
  rename_i hid
  obtain ⟨new, hnew, h⟩ := bind_eq_ok.mp h
  obtain ⟨rfl, -, -⟩ := Plan.write.inj (ok.inj h)
  obtain ⟨hsid, hsintent, -⟩ := sameIdentity_eq_true.mp (named_eq_ok hnew)
  exact .insert (hsintent ▸ hintent) (hsid ▸ hid) (hsid ▸ hblank)

/-- The zero session has no id. -/
theorem Loaded.lookup_session {intent : GoString} (hblank : blank (m.session intent).id = false) :
    m.byIntent.lookup intent = some (m.session intent) := by
  unfold Loaded.session at hblank ⊢
  cases hcurrent : m.byIntent.lookup intent with
  | none => rw [hcurrent] at hblank; cases hblank
  | some current => rfl

/-- A session that was restored with another name or other preferences is under its intent. -/
theorem replaced_change {intent : GoString} {changed : Session}
    (hsame : sameIdentity (m.session intent) changed)
    (hstatus : (m.session intent).status = changed.status)
    (hblank : blank (m.session intent).id = false) :
    Change digest e m (m.replaced intent changed) :=
  .swap (Loaded.lookup_session hblank) hsame (.inl ⟨rfl, fun hwork => hstatus ▸ hwork⟩)

/-- What `RenameSession` decides: it writes unless the session is equal to the current one. -/
theorem planRename_eq_ok {requested : GoString} {source : SessionNameSource} {plan : Plan Session}
    (h : planRename lower id requested source store = .ok plan) :
    ∃ intent next, store.memory.byID.lookup id = some intent ∧
      (store.memory.session intent).rename
        (SessionLabel.unique lower store.memory.byIntent id requested) source = .ok next ∧
      plan = if next.equal (store.memory.session intent) then .answer (store.memory.session intent)
        else .write (store.memory.replaced intent next) none next := by
  unfold planRename at h
  split at h
  · cases h
  rename_i intent hintent
  obtain ⟨next, hnext, h⟩ := bind_eq_ok.mp h
  refine ⟨intent, next, hintent, mapError_eq_ok.mp hnext, ?_⟩
  split at h <;> rename_i hequal
  · rw [if_pos hequal, ok.inj h]
  · rw [if_neg hequal, ok.inj h]

theorem planRename_change {requested : GoString} {source : SessionNameSource} {a : Session}
    (h : planRename lower id requested source store = .ok (.write next receipt a)) :
    Change digest e store.memory next := by
  obtain ⟨intent, changed, -, hchanged, h⟩ := planRename_eq_ok h
  split at h
  · cases h
  obtain ⟨rfl, -, -⟩ := Plan.write.inj h
  obtain ⟨hsame, hstatus, hblank⟩ := sameIdentity_of_restoreSession hchanged
  exact replaced_change hsame hstatus hblank

/-- `SetModelPreferences` keeps everything but the preferences. -/
theorem planModelPreferences_change {model effort : GoString}
    (h : planModelPreferences id model effort store = .ok (.write next receipt a)) :
    Change digest e store.memory next := by
  unfold planModelPreferences at h
  split at h
  · cases h
  obtain ⟨changed, hchanged, h⟩ := bind_eq_ok.mp h
  split at h
  · cases ok.inj h
  obtain ⟨rfl, -, -⟩ := Plan.write.inj (ok.inj h)
  obtain ⟨-, hrestored⟩ := check_eq_ok.mp (mapError_eq_ok.mp hchanged)
  obtain ⟨hsame, hstatus, hblank⟩ := sameIdentity_of_restoreSession hrestored
  exact replaced_change hsame hstatus hblank

theorem checkSwap_eq_ok (h : checkSwap w s t what = .ok ()) : sameIdentity s t := by
  iterate 3 replace h := of_check h
  simpa using refuse_eq_ok.mp h

/-- `CompareAndSwap` changes a session that starts. -/
theorem planCompareAndSwap_change (hcheck : checkCompareAndSwap w s t = .ok ())
    (h : planCompareAndSwap s t store = .ok (.write next receipt a)) :
    Change digest e store.memory next := by
  obtain ⟨hswap, hcheck⟩ := check_eq_ok.mp hcheck
  obtain ⟨hstatus, -⟩ := check_eq_ok.mp hcheck
  have hstarting : s.status = .starting := by
    have hstatus := refuse_eq_ok.mp hstatus
    simp only [or_eq_false_iff, decide_eq_false_iff_not, ne_eq, not_not] at hstatus
    exact hstatus.1
  unfold planCompareAndSwap at h
  split at h
  · cases h
  rename_i current hcurrent
  split at h
  · cases ok.inj h
  obtain ⟨hequal, h⟩ := check_eq_ok.mp h
  obtain ⟨rfl, -, -⟩ := Plan.write.inj (ok.inj h)
  obtain ⟨hsame, hcurrentStatus⟩ := sameIdentity_of_equal (by simpa using refuse_eq_ok.mp hequal)
  have hst := checkSwap_eq_ok hswap
  rw [(sameIdentity_eq_true.mp hst).2.1] at hcurrent
  refine .swap hcurrent (sameIdentity_trans hsame hst) (.inl ⟨rfl, fun hwork => ?_⟩)
  rw [hcurrentStatus, hstarting] at hwork
  cases hwork

/-- `Replace` changes a session, and withdraws what is known of its card if there is work. -/
theorem planReplace_change (hcheck : checkSwap w s t what = .ok ())
    (h : planReplace s t store = .ok (.write next receipt a)) :
    Change digest e store.memory next := by
  unfold planReplace at h
  split at h
  · cases h
  rename_i current hcurrent
  obtain ⟨hequal, h⟩ := check_eq_ok.mp h
  split at h
  · cases ok.inj h
  obtain ⟨rfl, -, -⟩ := Plan.write.inj (ok.inj h)
  obtain ⟨hsame, -⟩ := sameIdentity_of_equal (by simpa using refuse_eq_ok.mp hequal)
  have hst := checkSwap_eq_ok hcheck
  rw [(sameIdentity_eq_true.mp hst).2.1] at hcurrent
  refine .swap hcurrent (sameIdentity_trans hsame hst) ?_
  by_cases hwork : (hasWorkStatus current.status || hasWorkStatus t.status)
  · exact .inr (if_pos hwork)
  refine .inl ⟨if_neg hwork, fun hcurrentWork => ?_⟩
  rw [hcurrentWork, Bool.true_or] at hwork
  exact absurd rfl hwork

/-- What a deletion writes: the store without a session whose card is known to be empty. -/
theorem planDelete_eq_ok {a : Bool} (h : planDelete s true store = .ok (.write next receipt a)) :
    ∃ current ui, store.memory.byIntent.lookup s.intentID = some current ∧
      current.equal s ∧ store.memory.telegramUI = some ui ∧ provenEmpty ui s.id ∧
      a ∧ next = ⟨store.memory.byIntent.erase s.intentID, store.memory.byID.erase s.id,
        some (forget store.memory.byID (store.memory.byIntent.erase s.intentID) s.id ui.clone)⟩ := by
  unfold planDelete at h
  split at h
  · split at h
    · cases ok.inj h
    · cases h
  rename_i current hcurrent
  obtain ⟨hequal, h⟩ := check_eq_ok.mp h
  split at h
  · cases ok.inj h
  rename_i ui hui
  split at h
  · cases ok.inj h
  rename_i hempty
  replace h := of_check h
  obtain ⟨rfl, -, rfl⟩ := Plan.write.inj (ok.inj h)
  exact ⟨current, ui, hcurrent, by simpa using refuse_eq_ok.mp hequal, hui,
    by simpa using hempty, rfl, rfl⟩

/-- A deletion removes a session whose card is known to be empty. -/
theorem planDelete_change {a : Bool} (hop : op.deletes = some s)
    (hidle : hasWorkStatus s.status = false)
    (h : planDelete s true store = .ok (.write next receipt a)) :
    Change digest (.call op w) store.memory next := by
  obtain ⟨current, ui, hcurrent, hequal, hui, hempty, -, rfl⟩ := planDelete_eq_ok h
  exact .remove hop hcurrent hequal hidle hui hempty

/-- The deletions. -/
theorem deleteProven_steps (hop : op.deletes = some s) (hidle : hasWorkStatus s.status = false) :
    Steps lower digest (.call op w) store.toCached (store.deleteProven lower w s true).2.toCached :=
  checked_steps fun _ => transact_steps fun _ _ _ _ _ _ h => planDelete_change hop hidle h

theorem present_steps {p : Presentation} :
    Steps lower digest (.call (.present p) w) store.toCached
      (store.present lower digest w p).2.toCached := by
  refine checked_steps fun _ => checked_steps fun _ => transact_steps fun s next receipt a _ _ h => ?_
  obtain ⟨ui, hupdate, h⟩ := bind_eq_ok.mp h
  obtain ⟨hvalid, h⟩ := check_eq_ok.mp h
  obtain ⟨rfl, -, -⟩ := Plan.write.inj (ok.inj h)
  exact .present hupdate (mapError_eq_ok.mp hvalid)

/-- An import only adds. -/
theorem importArchived_steps {candidates : List Session} :
    Steps lower digest e store.toCached (store.importArchived lower w candidates).2.toCached := by
  unfold importArchived
  split
  · exact .refl
  refine reloaded_steps fun s _ hfresh => ?_
  unfold importMerged
  split
  · exact .refl
  · exact .refl
  rename_i next hmerge
  split
  · exact .refl
  exact persistVerified_steps hfresh
    ⟨fun _ _ hsession => ArchiveImport.merge_keeps hmerge hsession, rfl⟩

/-- A checkpoint leaves sessions and cards as they are. -/
theorem saveCheckpoint_steps {decision : Except Err Bool} {confirmed : Except Err Unit} :
    Steps lower digest e store.toCached
      (store.saveCheckpoint lower w decision confirmed).2.toCached := by
  unfold saveCheckpoint
  split
  · exact .refl
  refine reloaded_steps fun s _ hfresh => ?_
  split
  · exact .refl
  · exact .refl
  · exact persistVerified_steps hfresh ⟨fun _ _ hsession => hsession, rfl⟩

/-- A status that a deletion asks for is not one of work. -/
theorem idle_of_refuse {status : SessionStatus} {e' : Err}
    (h : refuse (s.status ≠ status) e' = .ok ()) (hidle : hasWorkStatus status = false) :
    hasWorkStatus s.status = false := by
  have hstatus : s.status = status := by simpa using refuse_eq_ok.mp h
  rw [hstatus]
  exact hidle

/-- Every operation is a sequence of steps of the file and its copy. -/
theorem run_steps (op : Operation) :
    Steps lower digest (.call op w) store.toCached (op.run lower digest w store).toCached := by
  cases op with
  | putStartingIfAbsent session =>
    refine checked_steps fun hcheck => transact_steps fun _ _ _ _ _ _ h => planPut_change ?_ h
    replace hcheck := of_check hcheck
    obtain ⟨hvalid, -⟩ := check_eq_ok.mp hcheck
    exact blank_of_validateSessionValue (mapError_eq_ok.mp hvalid)
  | renameSession id requested source =>
    exact checked_steps fun _ => transact_steps fun _ _ _ _ _ _ h => planRename_change h
  | compareAndSwap expected next =>
    exact checked_steps fun hcheck => transact_steps fun _ _ _ _ _ _ h =>
      planCompareAndSwap_change hcheck h
  | replace expected next =>
    exact checked_steps fun hcheck => transact_steps fun _ _ _ _ _ _ h => planReplace_change hcheck h
  | setModelPreferences id model effort =>
    exact checked_steps fun _ => transact_steps fun _ _ _ _ _ _ h => planModelPreferences_change h
  | importArchived candidates => exact importArchived_steps
  | deleteEmptyClosing expected =>
    refine checked_steps fun hcheck => deleteProven_steps rfl ?_
    exact idle_of_refuse (check_eq_ok.mp hcheck).2 rfl
  | deleteEmptyFailedStart expected =>
    refine checked_steps fun hcheck => deleteProven_steps rfl ?_
    have hstatus := refuse_eq_ok.mp hcheck
    simp only [or_eq_false_iff, decide_eq_false_iff_not, ne_eq, not_not] at hstatus
    rw [hstatus.1.1]
    rfl
  | deleteEmptyAwaitingRecovery expected | deleteUnrecoverableAwaitingRecovery expected =>
    exact checked_steps fun hcheck => deleteProven_steps rfl (idle_of_refuse hcheck rfl)
  | present p => exact present_steps
  | load => exact checked_steps fun _ => transact_steps fun _ _ _ _ _ _ h => by cases ok.inj h
  | saveCheckpoint decision confirmed => exact saveCheckpoint_steps

/-- A deletion that does not get to write, or whose write is refused, reads the file at most. -/
theorem run_steps_of_unwritten (hop : op.deletes = some s)
    (h : w.write.lands → ∀ store' next receipt,
      store.reload lower w.reading = .ok store' →
      planDelete s true store' ≠ .ok (.write next receipt true)) :
    Steps lower digest e store.toCached (op.run lower digest w store).toCached := by
  have hproven : Steps lower digest e store.toCached
      (store.deleteProven lower w s true).2.toCached := by
    refine checked_steps fun _ => transact_steps fun store' next receipt a hlands hreload hplan => ?_
    obtain ⟨-, -, -, -, -, -, rfl, -⟩ := planDelete_eq_ok hplan
    exact absurd hplan (h hlands store' next receipt hreload)
  cases op with
  | deleteEmptyClosing expected | deleteEmptyFailedStart expected
  | deleteEmptyAwaitingRecovery expected | deleteUnrecoverableAwaitingRecovery expected =>
    obtain rfl := some.inj hop
    exact checked_steps fun _ => hproven
  | _ => cases hop

theorem readVerified_eq_ok {file : Option Document} (h : readVerified lower reading file = .ok m) :
    readSessionFile lower reading.activity file = .ok m := by
  unfold readVerified at h
  split at h
  · cases h
  · exact h

/-- Every event is a sequence of steps of the file and its copy. -/
theorem step_steps (h : step lower digest e store = some store') :
    Steps lower digest e store.toCached store'.toCached := by
  cases e with
  | call op w =>
    obtain rfl := some.inj h
    exact run_steps op
  | reopen reading =>
    have h : (openSessionStore lower reading store.file).toOption = some store' := h
    rcases hopen : openSessionStore lower reading store.file with e' | opened
    · rw [hopen] at h
      cases h
    rw [hopen] at h
    obtain rfl := some.inj h
    obtain ⟨m, hread, hopen⟩ := bind_eq_ok.mp hopen
    obtain rfl := ok.inj hopen
    exact .single (.read (readVerified_eq_ok hread))

end Bria.Storage
