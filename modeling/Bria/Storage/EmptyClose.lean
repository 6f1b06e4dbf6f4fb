import Bria.Storage.Cards
import Bria.Storage.Index

/-!
# Deletions of empty sessions

The deletions of `empty_close.go` remove a session only if its card is known to be empty. A session is
`Touched` if it has work, or its card is not known to be empty. Every operation keeps a stored session
touched: `Replace` withdraws what is known of the card when work begins or ends, no other call makes a
card one that is known to be empty but the insertion of a session, and a session with that id is
already there. So a touched session is never deleted (`content_not_deleted`). An id that is not UTF-8
is another one once the file was read again, and the session is followed under either.

Two things are not covered by this. The card of an id may have content before there is a session with
that id, and the insertion of the session starts a new card. And the function that a caller gives to
`UpdateTelegramUI` may reset a card (`deleted_with_content`).
-/

namespace Bria.Storage

open Go Domain TelegramState CardHistory Machine Store State

section Deletions

variable {lower digest : GoString → GoString} {e : Event} {store store' : Store} {m m' : Loaded}
  {ui ui' : State} {id : GoString} {a a' : GoString → Int} {session : Session} {α : Type}
  {after : AfterFailure}

/-! ## What is known of a card in the file -/

/-- Whether the card of an id is known to be empty. -/
def knownEmpty (m : Loaded) (id : GoString) : Bool := m.telegramUI.any fun ui => provenEmpty ui id

/-- What is known depends on the mark and the history of the card. -/
theorem provenEmpty_of_map {f : Card → Card} (hf : ∀ card,
      (f card).emptyCloseEligible = card.emptyCloseEligible ∧ (f card).history = card.history)
    (h : ui'.cardMap.lookup id = (ui.cardMap.lookup id).map f) :
    provenEmpty ui' id = provenEmpty ui id := by
  rw [provenEmpty, provenEmpty, h, any_map]
  congr 1
  funext card
  rw [(hf card).1, (hf card).2]

/-- What is written of the cards. -/
theorem provenEmpty_mainState (ui : State) (id : GoString) :
    provenEmpty ui.mainState id = provenEmpty ui id := by
  refine provenEmpty_of_map (f := fun card => { card with lastEventUnixNano := 0 })
    (fun card => ⟨rfl, rfl⟩) ?_
  simp only [mainState, clone, cardMap, map_some, getD_some, lookup_update]
  exact Option.map_eq_bind.symm

/-- The times of the last events do not matter. -/
theorem provenEmpty_applyActivity (activity : GoString → Int) (ui : State) (id : GoString) :
    provenEmpty (ui.applyActivity activity) id = provenEmpty ui id := by
  refine provenEmpty_of_map (f := fun card => if 0 < activity id then
    { card with lastEventUnixNano := activity id } else card) (fun card => ?_) ?_
  · split <;> exact ⟨rfl, rfl⟩
  cases hcards : ui.cards with
  | none => simp [applyActivity, cardMap, hcards]
  | some cards =>
    simp only [applyActivity, cardMap, hcards, map_some, getD_some, lookup_update]
    exact Option.map_eq_bind.symm

/-- A card that is known to be empty when it comes back from the file was so before. -/
theorem provenEmpty_reencode (h : provenEmpty ui.reencode id) :
    ∃ id', jsonText id' = id ∧ provenEmpty ui id' := by
  obtain ⟨card, hlookup, heligible, hhistory⟩ := provenEmpty_eq_true.mp h
  rcases hcards : ui.cards with _ | cards
  · simp [reencode, cardMap, hcards] at hlookup
  simp only [reencode, cardMap, hcards, map_some, getD_some] at hlookup
  obtain ⟨id', card', hlookup', hid, rfl⟩ := Map.lookup_rekey hlookup
  refine ⟨id', hid, provenEmpty_eq_true.mpr ⟨card', ?_, heligible, map_eq_nil_iff.mp hhistory⟩⟩
  rw [cardMap, hcards, getD_some]
  exact hlookup'

variable {activity : GoString → Int}

theorem readTelegramUI_eq_ok (h : readTelegramUI activity ui = .ok ui') :
    Named ui' ∧ ∀ id, provenEmpty ui' id = provenEmpty ui.reencode id := by
  obtain ⟨hvalid, h⟩ := check_eq_ok.mp h
  obtain rfl := ok.inj h
  have hnamed := named_of_validate (mapError_eq_ok.mp hvalid)
  refine ⟨fun id card hcard => ?_, fun id => ?_⟩
  · rw [cardMap_clone] at hcard
    exact hnamed id card hcard
  rw [provenEmpty, cardMap_clone]
  exact provenEmpty_applyActivity activity ui.reencode id

variable {file : Option Document}

/-- What is known of the cards that are read depends on the file alone. -/
theorem knownEmpty_read (h : readSessionFile lower a file = .ok m)
    (h' : readSessionFile lower a' file = .ok m') (id : GoString) :
    knownEmpty m' id = knownEmpty m id := by
  rcases file with _ | document
  · rw [← ok.inj h, ← ok.inj h']
  obtain ⟨-, ⟨hnone, hm⟩ | ⟨ui, read, hui, hread, hm⟩⟩ := readSessionFile_eq_ok h
  · obtain ⟨-, ⟨-, hm'⟩ | ⟨ui', _, hui', -⟩⟩ := readSessionFile_eq_ok h'
    · rw [knownEmpty, knownEmpty, hm, hm']
    rw [hnone] at hui'
    cases hui'
  obtain ⟨-, ⟨hnone, -⟩ | ⟨ui', read', hui', hread', hm'⟩⟩ := readSessionFile_eq_ok h'
  · rw [hnone] at hui
    cases hui
  obtain rfl := mem_unique hui hui'
  rw [knownEmpty, knownEmpty, hm, hm', any_some, any_some,
    (readTelegramUI_eq_ok hread).2, (readTelegramUI_eq_ok hread').2]

/-! ## Stores in order -/

/-- A card that is known to be empty belongs to a stored session. -/
def Owned (m : Loaded) : Prop :=
  ∀ id, knownEmpty m id →
    ∃ intent session, m.byIntent.lookup intent = some session ∧ session.id = id

theorem Owned.grows (h : Owned m) (hgrows : Grows m m') : Owned m' := by
  intro id hid
  rw [knownEmpty, hgrows.telegramUI] at hid
  obtain ⟨intent, session, hsession, hsid⟩ := h id hid
  exact ⟨intent, session, hgrows.session _ _ hsession, hsid⟩

/-- A card that is known to be empty when it is read was so when it was written. -/
theorem knownEmpty_trip (hread : readSessionFile lower activity (encode m) = .ok m')
    (hid : knownEmpty m' id) : ∃ id', jsonText id' = id ∧ knownEmpty m id' := by
  obtain ⟨-, ⟨-, hm'⟩ | ⟨written, ui', hwritten, hui', hm'⟩⟩ := readSessionFile_eq_ok hread
  · rw [knownEmpty, hm'] at hid
    cases hid
  rw [knownEmpty, hm', any_some, (readTelegramUI_eq_ok hui').2] at hid
  obtain ⟨id', hid', hempty⟩ := provenEmpty_reencode hid
  obtain ⟨ui, hui, rfl⟩ := map_eq_some_iff.mp hwritten
  rw [provenEmpty_mainState] at hempty
  exact ⟨id', hid', by rw [knownEmpty, hui, any_some, hempty]⟩

theorem Owned.trip (h : Owned m)
    (hread : readSessionFile lower activity (encode m) = .ok m') : Owned m' := by
  intro id hid
  obtain ⟨id', rfl, hknown⟩ := knownEmpty_trip hread hid
  obtain ⟨intent, session, hsession, rfl⟩ := h id' hknown
  obtain ⟨restored, hrestored, hlookup⟩ := readSessionFile_session hread hsession
  exact ⟨_, restored, hlookup, (restored_eq hrestored).1⟩

/-- The maps are inverse, the cards are under the ids of their sessions, and those that are known to
be empty have an owner. -/
structure Tidy (m : Loaded) : Prop where
  inverse : Inverse m
  named : ∀ ui, m.telegramUI = some ui → Named ui
  owned : Owned m

/-- What is read is in order, if every empty card in it has an owner. -/
theorem Tidy.of_read (h : readSessionFile lower activity file = .ok m) (howned : Owned m) :
    Tidy m := by
  refine ⟨readSessionFile_inverse h, fun ui hui => ?_, howned⟩
  rcases file with _ | document
  · obtain rfl := ok.inj h
    cases hui
  obtain ⟨-, ⟨-, hm⟩ | ⟨_, ui', -, hread, hm⟩⟩ := readSessionFile_eq_ok h
  · rw [hm] at hui
    cases hui
  rw [hm] at hui
  obtain rfl := some.inj hui
  exact (readTelegramUI_eq_ok hread).1

/-- A session that is stored, under the id or what the file makes of it, and has work or a card that
is not known to be empty. -/
def Touched (id : GoString) (m : Loaded) : Prop :=
  ∃ intent session, m.byIntent.lookup intent = some session ∧
    (session.id = id ∨ session.id = jsonText id) ∧
    (hasWorkStatus session.status ∨ knownEmpty m session.id = false)

/-- A touched session is one when it is read again. -/
theorem Touched.trip (hm : Owned m) (h : Touched id m)
    (hread : readSessionFile lower activity (encode m) = .ok m') : Touched id m' := by
  obtain ⟨intent, session, hsession, hsid, hcontent⟩ := h
  obtain ⟨restored, hrestored, hlookup⟩ := readSessionFile_session hread hsession
  obtain ⟨hrid, -, -, -, -, hstatus⟩ := restored_eq hrestored
  have hself : restored.id = jsonText id := by
    rcases hsid with hsid | hsid
    · rw [hrid, ← hsid]
    · exact hrid.trans ((congrArg jsonText hsid).trans (jsonText_jsonText id))
  refine ⟨_, restored, hlookup, .inr hself, hcontent.imp (fun hwork => ?_) fun hfalse => ?_⟩
  · rw [hstatus]
    cases hs : session.status with
    | other text =>
      rw [hs] at hwork
      cases hwork
    | _ => rw [hs] at hwork; exact hwork
  refine eq_false_iff.mpr fun htrue => ?_
  -- The card that is read was one of a stored session, and two sessions have two ids in the file.
  obtain ⟨id', hid', hknown⟩ := knownEmpty_trip hread htrue
  obtain ⟨intent', session', hsession', rfl⟩ := hm id' hknown
  have hsame : session = session' :=
    readSessionFile_ids hread hsession hsession' (hrid.symm.trans hid'.symm)
  rw [← hsame, hfalse] at hknown
  cases hknown

/-! ## Changes -/

/-- What is known of the cards that an operation starts from. -/
theorem provenEmpty_currentUI (m : Loaded) (id : GoString) :
    provenEmpty m.currentUI id = knownEmpty m id := by
  unfold Loaded.currentUI knownEmpty
  cases m.telegramUI with
  | none => rfl
  | some ui => rw [map_some, getD_some, provenEmpty, cardMap_clone]; rfl

theorem Tidy.currentUI (h : Tidy m) : Named m.currentUI := by
  intro id card hcard
  unfold Loaded.currentUI at hcard
  cases hui : m.telegramUI with
  | none =>
    rw [hui] at hcard
    cases hcard
  | some ui =>
    rw [hui, map_some, getD_some, cardMap_clone] at hcard
    exact h.named ui hui id card hcard

/-- A card that is known to be empty after `Replace` withdrew another. -/
theorem withdrawn_eq (hnamed : Named ui) (id : GoString) :
    Named (withdrawn ui id) ∧
      ∀ other, provenEmpty (withdrawn ui id) other → other ≠ id ∧ provenEmpty ui other := by
  unfold withdrawn
  rw [cardMap_clone]
  cases hlookup : ui.cardMap.lookup id with
  | none =>
    -- There is no card, and nothing changes.
    have hzero : ¬Card.zero.sessionID ≠ [] := not_not.mpr rfl
    rw [Option.getD_none, if_neg hzero]
    refine ⟨fun other card hcard => ?_, fun other hother => ⟨?_, ?_⟩⟩
    · rw [cardMap_clone] at hcard
      exact hnamed other card hcard
    · rintro rfl
      rw [provenEmpty, cardMap_clone, hlookup] at hother
      cases hother
    · rwa [provenEmpty, cardMap_clone] at hother
  | some card =>
    obtain ⟨hsession, hne⟩ := hnamed id card hlookup
    have hset : card.sessionID ≠ [] := hsession ▸ hne
    rw [getD_some, if_pos hset]
    refine ⟨fun other card' hcard' => ?_, fun other hother => ?_⟩
    · rcases of_lookup_insert hcard' with ⟨rfl, rfl⟩ | hcard'
      · exact ⟨hsession, hne⟩
      · exact hnamed other card' hcard'
    obtain ⟨card', hcard', heligible, hhistory⟩ := provenEmpty_eq_true.mp hother
    rw [cardMap, getD_some, lookup_insert] at hcard'
    split at hcard'
    · obtain rfl := some.inj hcard'
      cases heligible
    rename_i hother
    exact ⟨hother, provenEmpty_eq_true.mpr ⟨card', hcard', heligible, hhistory⟩⟩

/-- A card that is known to be empty after a deletion is another one. -/
theorem forget_eq (hnamed : Named ui) (byID : Map GoString GoString)
    (sessions : Map GoString Session) (id : GoString) :
    Named (forget byID sessions id ui.clone) ∧
      ∀ other, provenEmpty (forget byID sessions id ui.clone) other →
        other ≠ id ∧ provenEmpty ui other := by
  have hcards : ∀ other, (forget byID sessions id ui.clone).cardMap.lookup other =
      if other = id then none else ui.cardMap.lookup other := by
    intro other
    rw [← lookup_erase, ← cardMap_clone]
    rfl
  refine ⟨fun other card hcard => ?_, fun other hother => ?_⟩
  · rw [hcards] at hcard
    split at hcard
    · cases hcard
    · exact hnamed other card hcard
  obtain ⟨card, hcard, heligible, hhistory⟩ := provenEmpty_eq_true.mp hother
  rw [hcards] at hcard
  split at hcard
  · cases hcard
  rename_i hne
  exact ⟨hne, provenEmpty_eq_true.mpr ⟨card, hcard, heligible, hhistory⟩⟩

theorem inserted_eq (h : Tidy m) (hblank : blank session.id = false) :
    (∀ ui, (m.inserted session).telegramUI = some ui → Named ui) ∧
      ∀ id, knownEmpty (m.inserted session) id → id = session.id ∨ knownEmpty m id := by
  refine ⟨fun ui hui id card hcard => ?_, fun id hid => ?_⟩
  · obtain rfl := some.inj hui
    rcases of_lookup_insert hcard with ⟨rfl, rfl⟩ | hcard
    · refine ⟨rfl, ?_⟩
      rintro heq
      rw [heq] at hblank
      cases hblank
    · exact h.currentUI id card hcard
  obtain ⟨card, hcard, heligible, hhistory⟩ := provenEmpty_eq_true.mp hid
  rw [cardMap, getD_some, lookup_insert] at hcard
  split at hcard
  · rename_i hsame
    exact .inl hsame
  rw [← provenEmpty_currentUI]
  exact .inr (provenEmpty_eq_true.mpr ⟨card, hcard, heligible, hhistory⟩)

/-- The updates that callers give to `UpdateTelegramUI` make no card one that is known to be empty. -/
def Event.Careful : Event → Prop
  | .call (.present p) _ => p.Careful
  | _ => True

section

variable (hcareful : e.Careful) (h : Change digest e m m') (hm : Tidy m)
include hcareful h hm

/-- A card that is known to be empty after a change was so before, or its session is new. -/
theorem Change.knownEmpty {id : GoString} (hid : knownEmpty m' id) :
    Storage.knownEmpty m id ∨ m.byID.lookup id = none ∧
      ∃ intent session, m'.byIntent.lookup intent = some session ∧ session.id = id := by
  cases h with
  | insert hintent hnew hblank =>
    rcases (inserted_eq hm hblank).2 id hid with rfl | hid
    · exact .inr ⟨hnew, _, _, AList.lookup_insert _, rfl⟩
    · exact .inl hid
  | swap hcurrent hsame hui =>
    rcases hui with ⟨rfl, -⟩ | rfl
    · exact .inl hid
    rcases hui : m.telegramUI with _ | ui
    · rw [Storage.knownEmpty, hui] at hid
      cases hid
    rw [Storage.knownEmpty, hui, map_some, any_some] at hid
    rw [Storage.knownEmpty, hui, any_some]
    exact .inl ((withdrawn_eq (hm.named ui hui) _).2 id hid).2
  | remove hop hcurrent hequal hidle hui hempty =>
    rw [Storage.knownEmpty, hui, any_some]
    exact .inl ((forget_eq (hm.named _ hui) _ _ _).2 id hid).2
  | present hupdate hvalid =>
    rw [← provenEmpty_currentUI]
    exact .inl (update_keepsContent hcareful hm.currentUI hupdate id hid)

/-- What a change may do to a stored session: it stays, and its work is lost only together with the
mark of its card, or it had no work and is removed with a card that was known to be empty. -/
theorem Change.stored {intent : GoString} (hsession : m.byIntent.lookup intent = some session) :
    (∃ session', m'.byIntent.lookup intent = some session' ∧ session'.id = session.id ∧
        (hasWorkStatus session.status → hasWorkStatus session'.status ∨
          Storage.knownEmpty m' session.id = false) ∧
        (Storage.knownEmpty m session.id = false → Storage.knownEmpty m' session.id = false)) ∨
      hasWorkStatus session.status = false ∧ Storage.knownEmpty m session.id ∧
        Storage.knownEmpty m' session.id = false := by
  have hstored : m.byID.lookup session.id = some intent :=
    (hm.inverse.id session.id intent).mpr ⟨session, hsession, rfl⟩
  have hkept : Storage.knownEmpty m session.id = false →
      Storage.knownEmpty m' session.id = false := by
    intro hfalse
    refine eq_false_iff.mpr fun htrue => ?_
    rcases h.knownEmpty hcareful hm htrue with hbefore | ⟨hnone, -⟩
    · rw [hfalse] at hbefore
      cases hbefore
    rw [hstored] at hnone
    cases hnone
  cases h with
  | insert hintent hnew hblank =>
    refine .inl ⟨session, ?_, rfl, .inl, hkept⟩
    simp only [Loaded.inserted, lookup_insert]
    rw [if_neg]
    · exact hsession
    rintro rfl
    rw [hintent] at hsession
    cases hsession
  | @swap _ _ intent' current next _ hcurrent hsame hui =>
    left
    simp only [Loaded.replaced, lookup_insert]
    by_cases hintent : intent = intent'
    · rw [hintent, hcurrent] at hsession
      obtain rfl := some.inj hsession
      have hid := (sameIdentity_eq_true.mp hsame).1
      refine ⟨next, if_pos hintent, hid.symm, fun hwork => ?_, hkept⟩
      rcases hui with ⟨-, hui⟩ | rfl
      · exact .inl (hui hwork)
      -- The card of the session is the one that is withdrawn.
      refine .inr (eq_false_iff.mpr fun htrue => ?_)
      obtain ⟨ui', hui', hempty⟩ := (Option.any_eq_true _ _).mp htrue
      obtain ⟨ui, hui, rfl⟩ := map_eq_some_iff.mp hui'
      exact ((withdrawn_eq (hm.named ui hui) _).2 _ hempty).1 hid
    · exact ⟨session, by rw [if_neg hintent]; exact hsession, rfl, .inl, hkept⟩
  | @remove _ _ _ expected current ui _ hcurrent hequal hidle hui hempty =>
    obtain ⟨hsame, hstatus⟩ := sameIdentity_of_equal hequal
    have hid := (sameIdentity_eq_true.mp hsame).1
    by_cases hintent : intent = expected.intentID
    · right
      rw [hintent, hcurrent] at hsession
      obtain rfl := some.inj hsession
      rw [hstatus, hid]
      refine ⟨hidle, ?_, eq_false_iff.mpr fun htrue => ?_⟩
      · rw [Storage.knownEmpty, hui, any_some, hempty]
      · exact ((forget_eq (hm.named ui hui) _ _ _).2 _ htrue).1 rfl
    refine .inl ⟨session, ?_, rfl, .inl, hkept⟩
    rw [lookup_erase, if_neg hintent]
    exact hsession
  | present hupdate hvalid => exact .inl ⟨session, hsession, rfl, .inl, hkept⟩

/-- Every change keeps the store in order. -/
theorem Tidy.change : Tidy m' := by
  refine ⟨h.inverse hm.inverse, ?_, fun id hid => ?_⟩
  · cases h with
    | insert hintent hnew hblank => exact (inserted_eq hm hblank).1
    | swap hcurrent hsame hui =>
      rcases hui with ⟨rfl, -⟩ | rfl
      · exact hm.named
      intro ui' hui'
      obtain ⟨ui, hui, rfl⟩ := map_eq_some_iff.mp hui'
      exact (withdrawn_eq (hm.named ui hui) _).1
    | remove hop hcurrent hequal hidle hui hempty =>
      intro ui' hui'
      obtain rfl := some.inj hui'
      exact (forget_eq (hm.named _ hui) _ _ _).1
    | present hupdate hvalid =>
      intro ui' hui'
      obtain rfl := some.inj hui'
      exact named_of_validate hvalid
  · rcases h.knownEmpty hcareful hm hid with hbefore | ⟨-, hstored⟩
    · obtain ⟨intent, session, hsession, rfl⟩ := hm.owned id hbefore
      rcases h.stored hcareful hm hsession with ⟨session', hsession', hid', -⟩ | ⟨-, -, hfalse⟩
      · exact ⟨intent, session', hsession', hid'⟩
      rw [hid] at hfalse
      cases hfalse
    · exact hstored

end

/-- Every change keeps a session that is touched. -/
theorem Touched.change (hcareful : e.Careful) (hchange : Change digest e m m') (hm : Tidy m)
    (h : Touched id m) : Touched id m' := by
  obtain ⟨intent, session, hsession, hsid, hcontent⟩ := h
  rcases hchange.stored hcareful hm hsession with
    ⟨session', hsession', hid, hwork, hempty⟩ | ⟨hidle, hempty, -⟩
  · refine ⟨intent, session', hsession', by rwa [hid], ?_⟩
    rw [hid]
    exact hcontent.elim hwork fun hfalse => .inr (hempty hfalse)
  rw [hidle, hempty] at hcontent
  rcases hcontent with hwork | hfalse
  · cases hwork
  · cases hfalse

theorem Touched.grows (h : Touched id m) (hgrows : Grows m m') : Touched id m' := by
  obtain ⟨intent, session, hsession, hid, hcontent⟩ := h
  refine ⟨intent, session, hgrows.session _ _ hsession, hid, ?_⟩
  rwa [knownEmpty, hgrows.telegramUI]

/-! ## Runs -/

/-- What is read has every touched session that was there. -/
def Remembers (m m' : Loaded) : Prop := Owned m → ∀ id, Touched id m → Touched id m'

/-- The store is in order, and its file has the touched sessions of a fresh copy. -/
structure Watched (lower : GoString → GoString) (c : Cached Loaded (Option Document)) : Prop where
  tidy : Cached.Holds (readSessionFile lower) Tidy c
  agrees : Cached.Agrees (readSessionFile lower) Remembers c

theorem remembers_of_read (h : readSessionFile lower a file = .ok m)
    (h' : readSessionFile lower a' file = .ok m') : Remembers m m' := by
  rintro - id ⟨intent, session, hsession, hid, hcontent⟩
  rw [← readSessionFile_byIntent h h'] at hsession
  exact ⟨intent, session, hsession, hid, by rwa [knownEmpty_read h h']⟩

theorem Tidy.trip (h : Owned m) (hread : readSessionFile lower activity (encode m) = .ok m') :
    Tidy m' :=
  .of_read hread (h.trip hread)

/-- Every step of the file and its copy keeps the store watched. -/
theorem Watched.cachedStep (hcareful : e.Careful) {c c' : Cached Loaded (Option Document)}
    (h : Cached.Step (readSessionFile lower) encode (Change digest e) Grows c c')
    (hc : Watched lower c) : Watched lower c' := by
  refine ⟨h.holds (P := Tidy) ?_ ?_ ?_ hc.tidy, h.agrees (fun _ _ _ _ _ => remembers_of_read) ?_ ?_⟩
  · exact fun m a m' hm hread => .trip hm.owned hread
  · exact fun m m' hchange hm => .change hcareful hchange hm
  · exact fun m m' a m'' hgrows hm hread => .trip (hm.owned.grows hgrows) hread
  · exact fun m a m' hread howned id htouched => htouched.trip howned hread
  · exact fun m m' a m'' hgrows hread howned id htouched =>
      (htouched.grows hgrows).trip (howned.grows hgrows) hread

theorem Watched.step (hcareful : e.Careful) (h : Watched lower store.toCached)
    (hstep : step lower digest e store = some store') : Watched lower store'.toCached :=
  Cached.keeps_of_steps (fun _ _ hstep hc => hc.cachedStep hcareful hstep) (step_steps hstep) h

/-- A store without a file has no cards. -/
theorem Watched.opened {reading : Reading}
    (h : openSessionStore lower reading none = .ok store) : Watched lower store.toCached := by
  obtain ⟨m, hread, h⟩ := bind_eq_ok.mp h
  obtain rfl := ok.inj h
  have htidy : ∀ a m, readSessionFile lower a none = .ok m → Tidy m := by
    intro a m hm
    obtain rfl := ok.inj hm
    exact .of_read hm (fun id hid => nomatch hid)
  have hread := readVerified_eq_ok hread
  exact ⟨⟨fun _ => htidy _ _ hread, htidy⟩, fun _ _ _ hm' => remembers_of_read hread hm'⟩

/-- A store that has a touched session in a fresh copy, and in all that its file may be read as. -/
def Retains (lower : GoString → GoString) (id : GoString) (s : Store) : Prop :=
  Cached.Holds (readSessionFile lower) (fun m => Tidy m ∧ Touched id m) s.toCached

/-- A watched store that shows a touched session retains it. -/
theorem Watched.retains (h : Watched lower store.toCached) (hshows : store.Shows lower m)
    (htouched : Touched id m) : Retains lower id store := by
  have hm : Tidy m := Cached.Holds.shows h.tidy hshows
  have hholds : Cached.Holds (readSessionFile lower) (Touched id) store.toCached :=
    h.agrees.holds (fun _ _ _ _ _ => remembers_of_read) hshows htouched
      fun m' hm' => hm' hm.owned id htouched
  exact ⟨fun hfresh => ⟨h.tidy.1 hfresh, hholds.1 hfresh⟩,
    fun a m ha => ⟨h.tidy.2 a m ha, hholds.2 a m ha⟩⟩

/-- Every careful event retains a touched session. -/
theorem Retains.step (hcareful : e.Careful) (h : Retains lower id store)
    (hstep : step lower digest e store = some store') : Retains lower id store' := by
  refine Cached.keeps_of_steps (fun c c' hcached hc => ?_) (step_steps hstep) h
  refine hcached.holds (P := fun m => Tidy m ∧ Touched id m) ?_ ?_ ?_ hc
  · exact fun m a m' hm hread => ⟨.trip hm.1.owned hread, hm.2.trip hm.1.owned hread⟩
  · exact fun m m' hchange hm =>
      ⟨Tidy.change hcareful hchange hm.1, Touched.change hcareful hchange hm.1 hm.2⟩
  exact fun m m' a m'' hgrows hm hread => ⟨.trip (hm.1.owned.grows hgrows) hread,
    (hm.2.grows hgrows).trip (hm.1.owned.grows hgrows) hread⟩

variable {w : World}

/-- A call that succeeds has changed the Telegram state of what it read, and its copy is fresh. -/
theorem present_eq_ok {p : Presentation} (h : (store.present lower digest w p).1 = .ok ()) :
    ∃ s ui, store.reload lower w.reading = .ok s ∧
      p.update digest w.now s.memory s.memory.currentUI = .ok ui ∧
      (store.present lower digest w p).2.memory = { s.memory with telegramUI := some ui } ∧
      (store.present lower digest w p).2.fresh := by
  have h := mapError_eq_ok.mp h
  have hchecked := checked_eq_ok h
  rw [hchecked] at h
  have hupdates := checked_eq_ok h
  unfold present
  rw [hchecked]
  rw [updateTelegramUI, hupdates] at h ⊢
  obtain ⟨s, decision, hreload, hplan, hresult, hfresh⟩ := transact_eq_ok (Prod.ext h rfl)
  obtain ⟨ui, hupdate, hplan⟩ := bind_eq_ok.mp hplan
  replace hplan := of_check hplan
  obtain rfl := ok.inj hplan
  exact ⟨s, ui, hreload, hupdate, (Prod.mk.inj hresult).1, hfresh⟩

/-- A stored session has work, or its card has entries. -/
def Engaged (id : GoString) (m : Loaded) : Prop :=
  ∃ intent session, m.byIntent.lookup intent = some session ∧ session.id = id ∧
    (hasWorkStatus session.status ∨
      ∃ ui card, m.telegramUI = some ui ∧ ui.cardMap.lookup id = some card ∧ card.history ≠ [])

/-- Such a session is touched. -/
theorem Engaged.touched (h : Engaged id m) : Touched id m := by
  obtain ⟨intent, session, hsession, hid, hcontent⟩ := h
  refine ⟨intent, session, hsession, .inl hid, hcontent.imp_right ?_⟩
  rintro ⟨ui, card, hui, hcard, hhistory⟩
  rw [hid, knownEmpty, hui, any_some, provenEmpty, hcard, any_some]
  simp [hhistory]

/-- The event is a call that puts an entry into the card of a stored session, and it succeeds. -/
def Event.Fills (lower digest : GoString → GoString) (id : GoString) (s : Store) (e : Event) :
    Prop :=
  ∃ p w, e = .call (.present p) w ∧ p.content = some id ∧
    (s.present lower digest w p).1 = .ok () ∧
    ∃ intent session, (s.present lower digest w p).2.memory.byIntent.lookup intent = some session ∧
      session.id = id

/-- After such a call the session is touched. -/
theorem Event.Fills.touched (h : e.Fills lower digest id store)
    (hstore : Watched lower store.toCached) (hstep : step lower digest e store = some store') :
    store'.Shows lower store'.memory ∧ Touched id store'.memory := by
  obtain ⟨p, w, rfl, hcontent, hok, intent, session, hsession, hid⟩ := h
  obtain rfl := some.inj hstep
  obtain ⟨s, ui, hreload, hupdate, hmemory, hfresh⟩ := present_eq_ok hok
  refine ⟨shows_memory hfresh, intent, session, hsession, .inl hid, .inr ?_⟩
  have hs : Tidy s.memory := by
    -- The reading is a step as well.
    obtain ⟨hsteps, hread⟩ : Steps lower digest (.call .load w) store.toCached s.toCached ∧ s.fresh :=
      reload_steps hreload
    have hcareful : Event.Careful (.call .load w) := trivial
    exact (Cached.keeps_of_steps (fun _ _ hstep hc => Watched.cachedStep hcareful hstep hc) hsteps
      hstore).tidy.1 hread
  have hmemory : (Operation.run lower digest w store (.present p)).memory = _ := hmemory
  rw [hid, knownEmpty, hmemory, any_some]
  exact (update_content hs.currentUI hcontent hupdate).2

/-- In every run of a store that starts without a file, whatever the file system does: a session is
never deleted once it was stored with work, its card had entries while it was stored, or a call put
an entry into its card. From there on the store shows a session with its id, or with what the file
makes of the id. The updates that callers give to `UpdateTelegramUI` are to make no card one that is
known to be empty. -/
theorem content_not_deleted {reading : Reading} {start s s' t : Store} {front back : List Event}
    {e : Event} {m : Loaded} (hopen : openSessionStore lower reading none = .ok start)
    (hcareful : ∀ e' ∈ front ++ e :: back, e'.Careful)
    (hfront : exec (step lower digest) front start = some s)
    (hstep : step lower digest e s = some s')
    (hcontent : (∃ m, s'.Shows lower m ∧ Engaged id m) ∨ e.Fills lower digest id s)
    (hback : exec (step lower digest) back s' = some t) (hshows : t.Shows lower m) :
    ∃ intent session, m.byIntent.lookup intent = some session ∧
      (session.id = id ∨ session.id = jsonText id) := by
  have hfrontCareful : ∀ e' ∈ front, e'.Careful := fun e' he' => hcareful e' (by simp [he'])
  have hbackCareful : ∀ e' ∈ back, e'.Careful := fun e' he' => hcareful e' (by simp [he'])
  have hs : Watched lower s.toCached :=
    exec_keeps (P := fun s => Watched lower s.toCached)
      (fun _ _ _ hcareful hstep h => .step hcareful h hstep)
      (along_of_forall hfrontCareful start) hfront (Watched.opened hopen)
  have hs' : Watched lower s'.toCached := hs.step (hcareful e (by simp)) hstep
  have hretains : Retains lower id s' := by
    rcases hcontent with ⟨m, hshows, hengaged⟩ | hfills
    · exact hs'.retains hshows hengaged.touched
    obtain ⟨hshows, htouched⟩ := hfills.touched hs hstep
    exact hs'.retains hshows htouched
  have ht : Retains lower id t :=
    exec_keeps (fun _ _ _ hcareful hstep h => .step hcareful h hstep)
      (along_of_forall hbackCareful s') hback hretains
  obtain ⟨intent, session, hsession, hsid, -⟩ := (Cached.Holds.shows ht hshows).2
  exact ⟨intent, session, hsession, hsid⟩

end Deletions

/-- A plain entry for the card of a session. -/
def appendOf (id : GoString) : Event :=
  .call (.present (.appendCardTypedHistory id [0x61] .plain)) {}

/-- The start of a session fails. -/
def awaitOf (session : Session) : Event := .call (.compareAndSwap session (awaiting session)) {}

/-- A session whose start failed is deleted if it is empty. -/
def deleteOf (session : Session) : Event := .call (.deleteEmptyFailedStart (awaiting session)) {}

/-- A new session gets an entry, its start fails, and it is not deleted. -/
theorem draft_not_deleted :
    ∃ t intent session, exec (step id id)
        [putOf draft, appendOf draft.id, awaitOf draft, deleteOf draft] emptyStore = some t ∧
      t.memory.byIntent.lookup intent = some session ∧
      (session.id = draft.id ∨ session.id = jsonText draft.id) := by
  have hopen : openSessionStore id {} none = .ok emptyStore := rfl
  have hcareful : ∀ e ∈ [putOf draft] ++ appendOf draft.id :: [awaitOf draft, deleteOf draft],
      e.Careful := by
    simp [putOf, appendOf, awaitOf, deleteOf, Event.Careful, Presentation.Careful]
  obtain ⟨s, hfront⟩ : ∃ s, exec (step id id) [putOf draft] emptyStore = some s := ⟨_, rfl⟩
  obtain ⟨s', hstep⟩ : ∃ s', step id id (appendOf draft.id) s = some s' := ⟨_, rfl⟩
  obtain ⟨t, hback⟩ : ∃ t, exec (step id id) [awaitOf draft, deleteOf draft] s' = some t := ⟨_, rfl⟩
  have hrun : exec (step id id)
      [putOf draft, appendOf draft.id, awaitOf draft, deleteOf draft] emptyStore = some t :=
    exec_append.mpr ⟨s, hfront, exec_cons.mpr ⟨s', hstep, hback⟩⟩
  obtain rfl := some.inj hfront
  obtain rfl := some.inj hstep
  obtain rfl := some.inj hback
  obtain ⟨intent, session, hsession, hid⟩ := content_not_deleted hopen hcareful hfront hstep
    (.inr ⟨_, _, rfl, rfl, rfl, draft.intentID, draft, rfl, rfl⟩) hback (shows_memory rfl)
  exact ⟨_, intent, session, hrun, hsession, hid⟩

/-- A caller's update that gives a session a new card. -/
def resetOf (id : GoString) : Event :=
  .call (.present (.updateTelegramUI fun _ ui => .ok { ui with
    cards := some (ui.cardMap.insert id { newCard id with emptyCloseEligible := true }) })) {}

/-- A session is deleted although there was an entry in its card: once the entry was there before the
session, and once a caller reset the card. -/
theorem deleted_with_content :
    (∃ s t, exec (step id id) [appendOf draft.id] emptyStore = some s ∧
        (emptyStore.present id id {} (.appendCardTypedHistory draft.id [0x61] .plain)).1 = .ok () ∧
        exec (step id id) [putOf draft, awaitOf draft] s = some t ∧
        (t.deleteEmptyFailedStart id {} (awaiting draft)).1 = .ok true) ∧
      ∃ s t, exec (step id id) [putOf draft] emptyStore = some s ∧
        (s.present id id {} (.appendCardTypedHistory draft.id [0x61] .plain)).1 = .ok () ∧
        exec (step id id) [appendOf draft.id, resetOf draft.id, awaitOf draft] s = some t ∧
        (t.deleteEmptyFailedStart id {} (awaiting draft)).1 = .ok true :=
  ⟨⟨_, _, rfl, rfl, rfl, rfl⟩, _, _, rfl, rfl, rfl, rfl⟩

end Bria.Storage
