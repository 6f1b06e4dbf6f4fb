import Bria.AcceptedInput.Fence

/-!
# Custody of acknowledged inputs

What the fence guarantees over every interleaving of its calls with operations of the journal. A
receipt that was observed stays in the fence until its input is durably handed off, except that a
`Commit` clears the receipt some time after its own acceptance was stored: if the input is retried
and acknowledged again in between, the late `clear` removes the receipt of the new acknowledgement.
And a `Commit` that finds its input acknowledged returns nil without clearing the receipt, which
then blocks the session if the input is retried.
-/

namespace Bria.AcceptedInput

open Go MessageJournal Machine Shared World

variable {limits : Limits} {label : Label} {w w' : World} {key k : Receipt} {thread : Thread}
  {call : LeaseCall}

/-! ## One step -/

/-- The input of a receipt is durably accepted, completed, terminally failed or skipped. -/
def durable (limits : Limits) (key : Receipt) (disk : Disk) : Bool :=
  (recordAt limits disk key).any (·.phase.handedOff)

/-- What a thread can do next, to itself and to what the calls share. -/
inductive Thread.Moves (limits : Limits) (env : Env) (shared : Shared) :
    Thread → Thread → Shared → Prop where
  /-- `Commit` does not find the input of its receipt, or finds it out of its hands. -/
  | rejected {call : CommitCall} {e : Err} :
      Thread.Moves limits env shared (.commit call) (.committed call (some e)) shared
  /-- `Commit` finds its input acknowledged. -/
  | known {call : CommitCall} {r : InputRecord}
      (record : recordAt limits shared.disk call.key = some r)
      (phase : acknowledged (some r.phase)) :
      Thread.Moves limits env shared (.commit call) (.committed call none) shared
  /-- `Commit` finds its input leased to its owner. -/
  | owned {call : CommitCall} :
      Thread.Moves limits env shared (.commit call) (.observing call) shared
  /-- `Commit` observes the acknowledgement. -/
  | observed {call : CommitCall} :
      Thread.Moves limits env shared (.observing call) (.marking call false)
        (shared.observe call.key)
  /-- `Commit` tries once again to store the acceptance. -/
  | again {call : CommitCall} {disk : Disk}
      (written : disk = (Op.markInputAccepted env.ctx.withoutCancel call.key.sessionID
        call.key.messageID call.owner).step limits env.faults shared.disk) :
      Thread.Moves limits env shared (.marking call false) (.marking call true) { shared with disk }
  /-- `Commit` gives up. -/
  | failed {call : CommitCall} {again : Bool} {e : Err} {disk : Disk}
      (written : disk = (Op.markInputAccepted env.ctx.withoutCancel call.key.sessionID
        call.key.messageID call.owner).step limits env.faults shared.disk) :
      Thread.Moves limits env shared (.marking call again) (.committed call (some e))
        { shared with disk }
  /-- `Commit` has stored the acceptance. -/
  | stored {call : CommitCall} {again : Bool} {disk : Disk}
      (written : disk = (Op.markInputAccepted env.ctx.withoutCancel call.key.sessionID
        call.key.messageID call.owner).step limits env.faults shared.disk)
      (accepted : durable limits call.key disk) :
      Thread.Moves limits env shared (.marking call again) (.clearing call) { shared with disk }
  /-- `Commit` clears its receipt and returns nil. -/
  | cleared {call : CommitCall} :
      Thread.Moves limits env shared (.clearing call) (.committed call none) (shared.clear call.key)
  /-- `Lease` takes the mutex. -/
  | locked {call : LeaseCall} {keys : List Receipt} (all : keys.Perm shared.blocked) :
      Thread.Moves limits env shared (.lease call) (.checking call keys) shared
  /-- `Lease` passes a receipt that is none of its session's. -/
  | passed {call : LeaseCall} {key : Receipt} {rest : List Receipt}
      (other : key ∈ shared.blocked → key.sessionID ≠ call.sessionID) :
      Thread.Moves limits env shared (.checking call (key :: rest)) (.checking call rest) shared
  /-- `Lease` drops a receipt whose input is durably handed off. -/
  | dropped {call : LeaseCall} {key : Receipt} {rest : List Receipt}
      (handedOff : durable limits key shared.disk) :
      Thread.Moves limits env shared (.checking call (key :: rest)) (.checking call rest)
        (shared.clear key)
  /-- `Lease` returns an error at a receipt. -/
  | refused {call : LeaseCall} {key : Receipt} {rest : List Receipt} {e : Err}
      (blocked : key ∈ shared.blocked)
      (waiting : e = err .uncommitted → ∃ r, recordAt limits shared.disk key = some r ∧
        r.phase.handedOff = false) :
      Thread.Moves limits env shared (.checking call (key :: rest)) (.refused call key e) shared
  /-- `Lease` returns what `LeaseNextInput` returns. -/
  | taken {call : LeaseCall} {input : Input} {e : Option Err} {disk : Disk}
      (result : (leaseNextInput limits env.ctx call.sessionID call.owner call.now
        call.duration).run limits env.faults shared.disk = ((input, e), disk)) :
      Thread.Moves limits env shared (.checking call []) (.leased call input e) { shared with disk }

/-- A lookup never fails with `ErrUncommitted`. -/
theorem avoids_lookup (ctx : Context) (fault : Bool) (key : Receipt) (disk : Disk) :
    Avoids .uncommitted (lookup limits ctx fault key disk) := by
  refine .check rfl <| .bind ?_ fun inputs => ?_
  · refine .check rfl <| .check rfl <|
      .bind (avoids_readFile .uncommitted nofun _ _ _) fun loaded => .check rfl <| ?_
    split <;> exact .ok _
  split
  · exact .ok _
  · exact .bind (.refuse true rfl) fun _ => .ok ({}, inputs)

variable {shared : Shared} {next : Thread}

/-- Every step of a thread is one of its moves. -/
theorem Thread.moves_of_advance {env : Env} {shared' : Shared}
    (h : thread.advance limits env shared = some (next, shared')) :
    thread.Moves limits env shared next shared' := by
  cases thread with
  | commit call =>
    obtain ⟨rfl, rfl⟩ := h
    unfold commitLookup
    split
    · exact .rejected
    next input _ hlookup =>
    obtain ⟨r, hrecord, rfl⟩ := lookup_eq_ok hlookup
    split_ifs with hack howner
    · exact .known hrecord hack
    · exact .rejected
    · exact .owned
  | observing call =>
    obtain ⟨rfl, rfl⟩ := h
    exact .observed
  | marking call again =>
    obtain ⟨rfl, rfl⟩ := h
    have hstep : ∀ result disk, (markInputAccepted limits env.ctx.withoutCancel
          call.key.sessionID call.key.messageID call.owner).run limits env.faults shared.disk =
          (result, disk) →
        disk = (Op.markInputAccepted env.ctx.withoutCancel call.key.sessionID call.key.messageID
          call.owner).step limits env.faults shared.disk := by
      intro result disk hrun
      simp only [Op.step, Op.call, Call.forget_run, hrun]
    split
    · next e disk hrun =>
      cases again with
      | true => exact .failed (hstep _ _ hrun)
      | false => exact .again (hstep _ _ hrun)
    next accepted disk hrun =>
    split_ifs with hconfirms
    · simp only [CommitCall.confirms, and_eq_true, decide_eq_true_eq] at hconfirms
      obtain ⟨r, hrecord, hphase⟩ := markInputAccepted_nil hrun hconfirms.1.2
      refine .stored (hstep _ _ hrun) ?_
      simp [durable, hrecord, hphase, InputPhase.handedOff]
    · exact .failed (hstep _ _ hrun)
  | clearing call =>
    obtain ⟨rfl, rfl⟩ := h
    exact .cleared
  | lease call =>
    simp only [Thread.advance] at h
    split_ifs at h with hperm
    obtain ⟨rfl, rfl⟩ := h
    exact .locked (List.isPerm_iff.mp hperm)
  | checking call keys =>
    cases keys with
    | nil =>
      obtain ⟨rfl, rfl⟩ := h
      exact .taken rfl
    | cons key rest =>
      simp only [Thread.advance, some.injEq, leaseCheck] at h
      split_ifs at h with hother
      · obtain ⟨rfl, rfl⟩ := Prod.mk.inj h
        refine .passed fun hmem => ?_
        rcases Bool.or_eq_true_iff.mp hother with hgone | hsession
        · simpa using all_eq_true.mp hgone key hmem
        · simpa using hsession
      simp only [or_eq_true, all_eq_true, decide_eq_true_eq, not_or, not_forall, not_not] at hother
      obtain ⟨⟨_, hmem, rfl⟩, -⟩ := hother
      split at h
      · next e hlookup =>
        obtain ⟨rfl, rfl⟩ := Prod.mk.inj h
        refine .refused hmem fun he => ?_
        subst he
        simpa [GoError.is, err] using avoids_lookup _ _ _ _ _ hlookup
      next input _ hlookup =>
      obtain ⟨r, hrecord, rfl⟩ := lookup_eq_ok hlookup
      simp only [inputFromRecord, all_some, Bool.not_eq_true'] at h
      split_ifs at h with hwaits
      · obtain ⟨rfl, rfl⟩ := Prod.mk.inj h
        exact .refused hmem fun _ => ⟨r, hrecord, hwaits⟩
      obtain ⟨rfl, rfl⟩ := Prod.mk.inj h
      refine .dropped ?_
      simpa [durable, hrecord] using hwaits
  | committed | refused | leased => simp [Thread.advance] at h

/-- What can happen in one step. -/
inductive World.Moves (limits : Limits) (w : World) : Label → World → Prop where
  /-- An operation of the journal. -/
  | journal {event : Event} :
      Moves limits w (.journal event)
        ⟨{ w.shared with disk := event.op.step limits event.faults w.shared.disk }, w.threads⟩
  /-- An acknowledgement is observed. -/
  | observe {key : Receipt} (free : w.free) :
      Moves limits w (.observe key) ⟨w.shared.observe key, w.threads⟩
  /-- `Commit` is called. -/
  | callCommit {call : CommitCall} :
      Moves limits w (.callCommit call) ⟨w.shared, w.threads ++ [.commit call]⟩
  /-- `Lease` is called. -/
  | callLease {call : LeaseCall} :
      Moves limits w (.callLease call) ⟨w.shared, w.threads ++ [.lease call]⟩
  /-- A thread makes a move, with the mutex if it needs it. -/
  | advance {index : Nat} {env : Env} {thread next : Thread} {shared : Shared}
      (at_index : w.threads[index]? = some thread)
      (mutex : thread.locks → w.free)
      (move : thread.Moves limits env w.shared next shared) :
      Moves limits w (.advance index env) ⟨shared, w.threads.set index next⟩

/-- Every step of a process is one of its moves. -/
theorem World.moves_of_step (h : w.step limits label = some w') : w.Moves limits label w' := by
  cases label with
  | journal event =>
    obtain rfl := some.inj h
    exact .journal
  | observe key =>
    unfold step at h
    split_ifs at h with hfree
    obtain rfl := some.inj h
    exact .observe hfree
  | callCommit call =>
    obtain rfl := some.inj h
    exact .callCommit
  | callLease call =>
    obtain rfl := some.inj h
    exact .callLease
  | advance index env =>
    unfold step at h
    rcases ht : w.threads[index]? with _ | thread
    · simp [ht] at h
    simp only [ht] at h
    split_ifs at h with hlocked
    obtain ⟨⟨next, shared⟩, hadvance, rfl⟩ := map_eq_some_iff.mp h
    refine .advance ht (fun hlocks => ?_) (Thread.moves_of_advance hadvance)
    simpa [hlocks] using hlocked

/-- The move by which a call gets to where it is next. -/
theorem World.moves_of_next (h : w.next limits label = some next) :
    ∃ index env thread shared, label = .advance index env ∧ w.threads[index]? = some thread ∧
      thread.Moves limits env w.shared next shared ∧
      ∀ w', w.step limits label = some w' → w' = ⟨shared, w.threads.set index next⟩ := by
  unfold World.next at h
  split at h
  · next index env =>
    split at h
    · next thread hthread =>
      obtain ⟨⟨_, shared⟩, hadvance, rfl⟩ := map_eq_some_iff.mp h
      refine ⟨index, env, thread, shared, rfl, hthread, Thread.moves_of_advance hadvance, ?_⟩
      intro w' hstep
      simp only [step, hthread, hadvance, map_some] at hstep
      split_ifs at hstep
      exact (some.inj hstep).symm
    · cases h
  · cases h

/-- A step leaves the file as it is, or is one of an operation of the journal. A retry is never the
step of a thread. -/
theorem World.Moves.disk (h : w.Moves limits label w') :
    w'.shared.disk = w.shared.disk ∨
      ∃ op faults, w'.shared.disk = op.step limits faults w.shared.disk ∧
        ∀ ctx sessionID messageID, op = .retryInput ctx sessionID messageID →
          label = .journal ⟨op, faults⟩ := by
  cases h with
  | journal => exact .inr ⟨_, _, rfl, fun _ _ _ _ => rfl⟩
  | observe | callCommit | callLease => exact .inl rfl
  | @advance index env _ _ _ _ _ move =>
    cases move with
    | rejected | known | owned | observed | cleared | locked | passed | dropped | refused =>
      exact .inl rfl
    | again hwritten | failed hwritten | stored hwritten => exact .inr ⟨_, _, hwritten, nofun⟩
    | @taken call input e disk hresult =>
      refine .inr ⟨.leaseNextInput env.ctx call.sessionID call.owner call.now call.duration,
        env.faults, ?_, nofun⟩
      simp only [Op.step, Op.call, Call.forget_run, hresult]

/-! ## The mutex -/

/-- What the mutex guarantees: one `Lease` at a time is between its first look at the receipts and
its return, and it has not passed a receipt of its session that is still in the fence. -/
structure Guarded (w : World) : Prop where
  /-- At most one thread has the mutex. -/
  alone : ∀ (i j : Nat) (t u : Thread), w.threads[i]? = some t → w.threads[j]? = some u →
    t.locked → u.locked → i = j
  /-- The receipts of the session are still ahead of its loop. -/
  ahead : ∀ (i : Nat) (call : LeaseCall) (keys : List Receipt),
    w.threads[i]? = some (.checking call keys) →
    ∀ key ∈ w.shared.blocked, key.sessionID = call.sessionID → key ∈ keys

theorem Shared.mem_observe : k ∈ (shared.observe key).blocked ↔ k = key ∨ k ∈ shared.blocked := by
  unfold observe
  split_ifs with h
  · have hmem : key ∈ shared.blocked := by simpa using h
    constructor
    · exact .inr
    rintro (rfl | hk)
    · exact hmem
    · exact hk
  · exact mem_cons

theorem Shared.mem_clear : k ∈ (shared.clear key).blocked ↔ k ∈ shared.blocked ∧ k ≠ key := by
  simp [clear]

variable {i : Nat}

/-- No thread has the mutex when it is free. -/
theorem World.not_locked_of_free (hfree : w.free) {t : Thread}
    (ht : w.threads[i]? = some t) : t.locked = false := by
  have hall := all_eq_true.mp hfree t (mem_of_getElem? ht)
  simpa using hall

/-- A thread that does not hold the mutex after its step, with no receipt added. -/
theorem Guarded.unlocked (h : Guarded w)
    (hnext : next.locked = false) (hblocked : ∀ k ∈ shared.blocked, k ∈ w.shared.blocked) :
    Guarded ⟨shared, w.threads.set i next⟩ := by
  have hold : ∀ {j : Nat} {t : Thread}, (w.threads.set i next)[j]? = some t →
      t.locked → w.threads[j]? = some t := by
    intro j t ht hlocked
    rw [getElem?_set] at ht
    split_ifs at ht with hij hlen
    · obtain rfl := some.inj ht
      simp [hnext] at hlocked
    · exact ht
  constructor
  · intro j k t u ht hu hlt hlu
    exact h.alone j k t u (hold ht hlt) (hold hu hlu) hlt hlu
  intro j call keys ht k hk hsession
  exact h.ahead j call keys (hold ht rfl) k (hblocked k hk) hsession

/-- A thread that holds the mutex after its step, when no other thread did before. -/
theorem Guarded.taken {keys : List Receipt}
    (hothers : ∀ j t, j ≠ i → w.threads[j]? = some t → t.locked = false)
    (hahead : ∀ k ∈ shared.blocked, k.sessionID = call.sessionID → k ∈ keys) :
    Guarded ⟨shared, w.threads.set i (.checking call keys)⟩ := by
  have hone : ∀ {j : Nat} {t : Thread}, (w.threads.set i (.checking call keys))[j]? = some t →
      t.locked → j = i ∧ t = .checking call keys := by
    intro j t ht hlocked
    rw [getElem?_set] at ht
    split_ifs at ht with hij hlen
    · exact ⟨hij.symm, (some.inj ht).symm⟩
    · simp [hothers j t (Ne.symm hij) ht] at hlocked
  constructor
  · intro j k t u ht hu hlt hlu
    exact (hone ht hlt).1.trans (hone hu hlu).1.symm
  intro j call' keys' ht k hk hsession
  obtain ⟨-, hcheck⟩ := hone ht rfl
  cases hcheck
  exact hahead k hk hsession

/-- A call that starts does not hold the mutex. -/
theorem Guarded.called (h : Guarded w) (hthread : thread.locked = false) :
    Guarded ⟨w.shared, w.threads ++ [thread]⟩ := by
  have hold : ∀ {j : Nat} {t : Thread}, (w.threads ++ [thread])[j]? = some t →
      t.locked → w.threads[j]? = some t := by
    intro j t ht hlocked
    rw [List.getElem?_append] at ht
    split_ifs at ht with hj
    · exact ht
    obtain rfl := mem_singleton.mp (mem_of_getElem? ht)
    simp [hthread] at hlocked
  constructor
  · intro j k t u ht hu hlt hlu
    exact h.alone j k t u (hold ht hlt) (hold hu hlu) hlt hlu
  intro j call keys ht k hk hsession
  exact h.ahead j call keys (hold ht rfl) k hk hsession

/-- Every step keeps what the mutex guarantees. -/
theorem Guarded.step (h : Guarded w) (hmove : w.Moves limits label w') : Guarded w' := by
  cases hmove with
  | journal => exact ⟨h.alone, h.ahead⟩
  | observe hfree =>
    refine ⟨h.alone, fun i call keys ht => ?_⟩
    exact absurd (not_locked_of_free hfree ht) nofun
  | callCommit | callLease => exact h.called rfl
  | @advance index env thread next shared hthread hmutex move =>
    -- While `Lease` has the mutex, no other thread does.
    have hothers : thread.locked → ∀ j t, j ≠ index → w.threads[j]? = some t →
        t.locked = false := by
      intro hlocked j t hj ht
      by_contra hother
      exact hj (h.alone j index t thread ht hthread (by simpa using hother) hlocked)
    cases move with
    | rejected | known | owned => exact h.unlocked rfl fun _ hk => hk
    | again | failed | stored | refused | taken => exact h.unlocked rfl fun _ hk => hk
    | cleared => exact h.unlocked rfl fun k hk => (mem_clear.mp hk).1
    | observed =>
      have hfree := hmutex rfl
      refine ⟨(h.unlocked rfl fun _ hk => hk).alone, fun i call keys ht => ?_⟩
      rw [getElem?_set] at ht
      split_ifs at ht
      · cases ht
      · exact absurd (not_locked_of_free hfree ht) nofun
    | locked hall =>
      exact .taken (fun j t _ ht => not_locked_of_free (hmutex rfl) ht)
        fun k hk _ => hall.mem_iff.mpr hk
    | @passed call key rest hother =>
      refine .taken (hothers rfl) fun k hk hsession => ?_
      rcases mem_cons.mp (h.ahead index call _ hthread k hk hsession) with rfl | hrest
      · exact absurd hsession (hother hk)
      · exact hrest
    | @dropped call key rest =>
      refine .taken (hothers rfl) fun k hk hsession => ?_
      obtain ⟨hk, hne⟩ := mem_clear.mp hk
      exact (mem_cons.mp (h.ahead index call _ hthread k hk hsession)).resolve_left hne

/-! ## Acknowledged inputs are not leased again -/

/-- Whether the thread is a `Commit` that is about to clear the receipt. -/
def Thread.clears (key : Receipt) : Thread → Bool
  | .clearing call => call.key = key
  | _ => false

/-- The receipt is in the fence, and no `Commit` is about to clear it. -/
def Held (key : Receipt) (w : World) : Prop :=
  key ∈ w.shared.blocked ∧ ∀ thread ∈ w.threads, thread.clears key = false

/-- No acknowledgement is observed while a `Commit` is about to clear its receipt, unless the input
is durably handed off. -/
def quiet (limits : Limits) (label : Label) (w : World) : Bool :=
  match w.observes label with
  | some key => w.threads.all (!·.clears key) || durable limits key w.shared.disk
  | none => true

/-- A receipt stays held until its input is durably handed off. -/
theorem Held.step (h : Held key w) (hmove : w.Moves limits label w') :
    Held key w' ∨ durable limits key w'.shared.disk := by
  obtain ⟨hmem, hclear⟩ := h
  cases hmove with
  | journal => exact .inl ⟨hmem, hclear⟩
  | observe => exact .inl ⟨mem_observe.mpr (.inr hmem), hclear⟩
  | callCommit | callLease =>
    refine .inl ⟨hmem, fun t ht => ?_⟩
    rcases mem_append.mp ht with ht | ht
    · exact hclear t ht
    rw [mem_singleton.mp ht]
    rfl
  | @advance index env thread next shared hthread hmutex move =>
    -- The threads that clear, when the one that moves does not start to.
    have hset : next.clears key = false → ∀ t ∈ w.threads.set index next, t.clears key = false := by
      intro hnext t ht
      rcases List.mem_or_eq_of_mem_set ht with ht | rfl
      · exact hclear t ht
      · exact hnext
    cases move with
    | rejected | known | owned | again | failed | locked | passed | refused | taken =>
      exact .inl ⟨hmem, hset rfl⟩
    | observed => exact .inl ⟨mem_observe.mpr (.inr hmem), hset rfl⟩
    | @stored call again disk hwritten hdurable =>
      by_cases hkey : call.key = key
      · exact .inr (hkey ▸ hdurable)
      · exact .inl ⟨hmem, hset (by simp [Thread.clears, hkey])⟩
    | @cleared call =>
      have hother : call.key ≠ key := by
        simpa [Thread.clears] using hclear _ (mem_of_getElem? hthread)
      exact .inl ⟨mem_clear.mpr ⟨hmem, hother.symm⟩, hset rfl⟩
    | @dropped call other rest hdurable =>
      by_cases hkey : other = key
      · exact .inr (hkey ▸ hdurable)
      · exact .inl ⟨mem_clear.mpr ⟨hmem, fun h => hkey h.symm⟩, hset rfl⟩

/-- An observation that meets the condition holds its receipt, unless the input is durably handed
off already. -/
theorem Held.of_observes (hmove : w.Moves limits label w') (hkey : w.observes label = some key)
    (hquiet : quiet limits label w) : Held key w' ∨ durable limits key w'.shared.disk := by
  have hclear : (∀ thread ∈ w.threads, thread.clears key = false) ∨
      durable limits key w.shared.disk := by
    simpa [quiet, hkey] using hquiet
  cases hmove with
  | journal | callCommit | callLease => simp [observes] at hkey
  | observe =>
    obtain rfl : _ = key := some.inj hkey
    exact hclear.imp_left fun hclear => ⟨mem_observe.mpr (.inl rfl), hclear⟩
  | @advance index env thread next shared hthread hmutex move =>
    cases move with
    | @observed call =>
      obtain rfl : call.key = key := by simpa [observes, hthread] using hkey
      refine hclear.imp_left fun hclear => ⟨mem_observe.mpr (.inl rfl), ?_⟩
      intro t ht
      rcases List.mem_or_eq_of_mem_set ht with ht | rfl
      · exact hclear t ht
      · rfl
    | rejected | known | owned | again | failed | stored | cleared | locked | passed | dropped
    | refused | taken => simp [observes, hthread] at hkey

/-- An input that is not pending stays so through the steps of a process, unless it is retried. -/
theorem tracks_unretried {run : List Label} (hrun : exec (step limits) run w = some w')
    (hretry : ∀ ctx faults,
      Label.journal ⟨.retryInput ctx key.sessionID key.messageID, faults⟩ ∉ run)
    (h : Tracks limits (·.phase ≠ .pending) w.shared.disk key) :
    Tracks limits (·.phase ≠ .pending) w'.shared.disk key := by
  refine exec_keeps (P := fun w => Tracks limits (·.phase ≠ .pending) w.shared.disk key) ?_
    (along_of_forall (fun label hlabel => hlabel) w) hrun h
  intro label w w' hlabel hstep h
  rcases (moves_of_step hstep).disk with hdisk | ⟨op, faults, hdisk, hop⟩
  · rwa [hdisk]
  rw [hdisk]
  refine Tracks.step (fun r r1 hkept hr hr1 => ?_) h
  obtain ⟨before, ctx, faults', after, heq, -⟩ := hkept.returned hr hr1
  -- The only step of the run is the retry.
  obtain ⟨-, heq⟩ | ⟨_, -, heq⟩ := List.cons_eq_append_iff.mp heq
  · obtain ⟨hevent, -⟩ := cons.inj heq
    have hretried : op = .retryInput ctx key.sessionID key.messageID :=
      (congrArg Event.op hevent).symm
    refine hretry ctx faults ?_
    rw [← hretried, ← hop _ _ _ hretried]
    exact hlabel
  · simp at heq

/-- `Lease` returns an input at the end of its loop, and the input was pending. -/
theorem leased_pending {input : Input} (h : w.next limits label = some (.leased call input none)) :
    (∃ index : Nat, w.threads[index]? = some (.checking call [])) ∧
      ∃ d r, read limits w.shared.disk = .ok d ∧
        lookupInput d call.sessionID input.messageID = some r ∧ r.phase = .pending := by
  obtain ⟨index, env, thread, shared, -, hthread, move, -⟩ := moves_of_next h
  cases move with
  | taken hrun =>
    obtain ⟨d, s, r, hread, hs, hfirst, -, hpending, -, hresult⟩ :=
      leaseNextInput_leased (.inl (congrArg (·.1.2) hrun))
    have hinput : input.messageID = r.messageID := by
      rw [hrun] at hresult
      exact congrArg Input.messageID hresult
    refine ⟨⟨index, hthread⟩, d, r, hread, ?_, hpending⟩
    rw [hinput]
    exact lookupInput_of_mem (valid_of_read hread) hs (mem_of_find?_eq_some hfirst)

/-- Acknowledged inputs are not handed off twice. In every run of a process in which no
acknowledgement is observed while a `Commit` is about to clear its receipt, when `Lease` returns an
input of a session, the input of every acknowledgement observed before for that session has been
durably accepted, completed, terminally failed or skipped since. If the input that is leased was
itself acknowledged, it was retried since. -/
theorem acknowledged_not_leased (limits : Limits) (disk : Disk) (before between : List Label)
    (observation last : Label) (key : Receipt) (call : LeaseCall) (input : Input) (w₁ w₂ w₃ : World)
    (hquiet : Along (step limits) (fun label w => quiet limits label w)
      (before ++ observation :: between) ⟨⟨disk, []⟩, []⟩)
    (hbefore : exec (step limits) before ⟨⟨disk, []⟩, []⟩ = some w₁)
    (hobserves : w₁.observes observation = some key)
    (hobserved : w₁.step limits observation = some w₂)
    (hbetween : exec (step limits) between w₂ = some w₃)
    (hleases : w₃.next limits last = some (.leased call input none))
    (hsession : call.sessionID = key.sessionID) :
    (∃ front back w, between = front ++ back ∧ exec (step limits) front w₂ = some w ∧
        durable limits key w.shared.disk) ∧
      (input.messageID = key.messageID → ∃ ctx faults,
        Label.journal ⟨.retryInput ctx key.sessionID key.messageID, faults⟩ ∈ between) := by
  obtain ⟨hquiet1, hquiet⟩ := along_append hquiet hbefore
  obtain ⟨hquiet0, hquiet2⟩ := along_cons hquiet hobserved
  have hguarded : ∀ i s s', quiet limits i s → s.step limits i = some s' → Guarded s →
      Guarded s' := fun i s s' _ hstep hs => hs.step (moves_of_step hstep)
  have hguarded1 : Guarded w₁ := exec_keeps hguarded hquiet1 hbefore ⟨by simp, by simp⟩
  have hguarded3 : Guarded w₃ :=
    exec_keeps hguarded hquiet2 hbetween (hguarded1.step (moves_of_step hobserved))
  have hheld := exec_unless (P := Held key) (Q := fun w => durable limits key w.shared.disk)
    (fun i s s' _ hstep hs => hs.step (moves_of_step hstep)) hquiet2 hbetween
    (Held.of_observes (moves_of_step hobserved) hobserves hquiet0)
  have hsince : ∃ front back w, between = front ++ back ∧
      exec (step limits) front w₂ = some w ∧ durable limits key w.shared.disk := by
    -- A receipt that is held would be ahead of the loop, which is at its end.
    refine hheld.resolve_left fun hheld => ?_
    obtain ⟨⟨index, hthread⟩, -⟩ := leased_pending hleases
    simpa using hguarded3.ahead index call [] hthread key hheld.1 hsession.symm
  refine ⟨hsince, fun hmessage => ?_⟩
  obtain ⟨front, back, w, rfl, hfront, hdurable⟩ := hsince
  by_contra hretry
  simp only [not_exists] at hretry
  obtain ⟨w', hw', hback⟩ := exec_append.mp hbetween
  obtain rfl : w = w' := mem_unique hfront hw'
  obtain ⟨r, hrecord, hphase⟩ : ∃ r, recordAt limits w.shared.disk key = some r ∧
      r.phase.handedOff := by
    simpa [durable, Option.any_eq_true] using hdurable
  have htracks := tracks_unretried hback
    (fun ctx faults hmem => hretry ctx faults (mem_append_right _ hmem))
    fun _ => ⟨r, hrecord, fun hpending => by simp [hpending, InputPhase.handedOff] at hphase⟩
  obtain ⟨-, d, r1, hread, hlookup, hpending⟩ := leased_pending hleases
  obtain ⟨r2, hrecord2, hphase2⟩ := htracks ⟨d, hread⟩
  obtain ⟨d', hread', hlookup', -⟩ := recordAt_eq_some.mp hrecord2
  obtain rfl : d = d' := ok.inj (hread.symm.trans hread')
  rw [hsession, hmessage, hlookup', some.injEq] at hlookup
  exact hphase2 (hlookup ▸ hpending)

/-- The receipt of the input `m`. -/
def sampleKey : Receipt := ⟨[0x73], [0x6D], 1⟩

/-- A `Lease` for the session of `m`. -/
def sampleLease (now : Time) : LeaseCall := ⟨[0x73], [0x6F], now, 1⟩

/-- `m` and the input after it are enqueued, and `m` is leased. -/
def leasedFirst : List Label :=
  [.journal ⟨.enqueueInput {} [0x73] [0x6D] [] [], {}⟩,
    .journal ⟨.enqueueInput {} [0x73] [0x6E] [] [], {}⟩,
    .journal ⟨.leaseNextInput {} [0x73] [0x6F] ⟨1⟩ 1, {}⟩]

/-- Another caller stores the acceptance of `m`, and there is a `Lease`. -/
def acceptedElsewhere : List Label :=
  [.journal ⟨.markInputAccepted {} [0x73] [0x6D] [0x6F], {}⟩, .callLease (sampleLease ⟨3⟩),
    .advance 0 { order := [sampleKey] }, .advance 0 {}]

/-- `m` fails and is retried, and there is a `Lease`. -/
def retried (now : Time) : List Label :=
  [.journal ⟨.failInput {} [0x73] [0x6D], {}⟩, .journal ⟨.retryInput {} [0x73] [0x6D], {}⟩,
    .callLease (sampleLease now)]

/-- A process that has leased and acknowledged `m` and whose acceptance was stored by another
caller leases the input after it. -/
theorem acknowledged_not_leased_next :
    ∃ front back w, acceptedElsewhere = front ++ back ∧
      exec (step defaultLimits) (leasedFirst ++ .observe sampleKey :: front)
        ⟨⟨.missing, []⟩, []⟩ = some w ∧
      durable defaultLimits sampleKey w.shared.disk := by
  obtain ⟨front, back, w, hsplit, hrun, hdurable⟩ := (acknowledged_not_leased defaultLimits .missing
    leasedFirst acceptedElsewhere (.observe sampleKey) (.advance 0 {}) sampleKey (sampleLease ⟨3⟩)
    _ _ _ _ ⟨rfl, rfl, rfl, rfl, rfl, rfl, rfl, rfl, trivial⟩ rfl rfl rfl rfl rfl rfl).1
  exact ⟨front, back, w, hsplit, hrun, hdurable⟩

/-- The steps up to the second acknowledgement of an input whose first `Commit` has stored its
acceptance and not yet cleared its receipt: another `Lease` drops the receipt, and the input fails
and is retried and leased again. -/
def lateClear : List Label :=
  [.journal ⟨.enqueueInput {} [0x73] [0x6D] [] [], {}⟩,
    .callLease (sampleLease ⟨1⟩), .advance 0 {}, .advance 0 {},
    .callCommit ⟨sampleKey, [0x6F]⟩, .advance 1 {}, .advance 1 {}, .advance 1 {},
    .callLease (sampleLease ⟨3⟩), .advance 2 { order := [sampleKey] },
    .advance 2 {}, .advance 2 {}] ++ retried ⟨5⟩ ++ [.advance 3 {}, .advance 3 {}]

/-- After these steps the input is acknowledged again, the first `Commit` clears the receipt, and
`Lease` returns the input although it is durably pending since, with no retry. -/
theorem late_clear_leases_again :
    ∃ w₁ w₂ w₃ input,
      exec (step defaultLimits) lateClear ⟨⟨.missing, []⟩, []⟩ = some w₁ ∧
      w₁.step defaultLimits (.observe sampleKey) = some w₂ ∧
      exec (step defaultLimits)
        [.advance 1 {}, .callLease (sampleLease ⟨7⟩), .advance 4 {}] w₂ = some w₃ ∧
      w₃.next defaultLimits (.advance 4 {}) = some (.leased (sampleLease ⟨7⟩) input none) ∧
      input.messageID = [0x6D] ∧
      Along (step defaultLimits)
        (fun _ w => durable defaultLimits sampleKey w.shared.disk = false)
        [.advance 1 {}, .callLease (sampleLease ⟨7⟩), .advance 4 {}, .advance 4 {}] w₂ :=
  ⟨_, _, _, _, rfl, rfl, rfl, rfl, rfl, rfl, rfl, rfl, rfl, trivial⟩

/-! ## Committed receipts do not block -/

/-- No `Commit` finds its input accepted or failed while its receipt is in the fence. -/
def clean (limits : Limits) (label : Label) (w : World) : Bool :=
  match label with
  | .advance index _ =>
    match w.threads[index]? with
    | some (.commit call) => w.shared.blocked.all (· ≠ call.key) ||
      (recordAt limits w.shared.disk call.key).all fun r => r.phase ≠ .accepted && r.phase ≠ .failed
    | _ => true
  | _ => true

/-- The receipt is not in the fence, or its input is settled for good. -/
def Released (limits : Limits) (key : Receipt) (w : World) : Prop :=
  key ∉ w.shared.blocked ∨ Tracks limits (·.phase.settled) w.shared.disk key

/-- A step that does not observe the receipt leaves it released. -/
theorem Released.step (h : Released limits key w) (hmove : w.Moves limits label w')
    (hfresh : w.observes label ≠ some key) : Released limits key w' := by
  rcases h with hgone | hsettled
  · left
    cases hmove with
    | journal | callCommit | callLease => exact hgone
    | observe =>
      rw [mem_observe]
      rintro (rfl | hmem)
      · exact hfresh rfl
      · exact hgone hmem
    | @advance index env thread next shared hthread hmutex move =>
      cases move with
      | rejected | known | owned | again | failed | stored | locked | passed | refused | taken =>
        exact hgone
      | observed =>
        rw [mem_observe]
        rintro (rfl | hmem)
        · exact hfresh (by simp [observes, hthread])
        · exact hgone hmem
      | cleared | dropped => exact fun hmem => hgone (mem_clear.mp hmem).1
  · right
    rcases hmove.disk with hdisk | ⟨op, faults, hdisk, -⟩ <;> rw [hdisk]
    · exact hsettled
    refine hsettled.step fun r r1 hkept hr => ?_
    rw [(hkept.settled hr).1]
    exact hr

/-- A `Commit` that returns nil in a step that meets the condition releases its receipt. -/
theorem Released.of_commit {call : CommitCall} (hstep : w.step limits label = some w')
    (hreturns : w.next limits label = some (.committed call none))
    (hclean : clean limits label w) : Released limits call.key w' := by
  obtain ⟨index, env, thread, shared, rfl, hthread, hmove, hshared⟩ := moves_of_next hreturns
  obtain rfl := hshared w' hstep
  cases hmove with
  | @known _ r hrecord hack =>
    -- The receipt stays where it is, which is not in the fence unless the input is settled.
    simp only [clean, hthread, hrecord, all_some, or_eq_true, all_eq_true,
      and_eq_true, decide_eq_true_eq] at hclean
    rcases hclean with hgone | ⟨haccepted, hfailed⟩
    · exact .inl fun hmem => hgone _ hmem rfl
    refine .inr fun _ => ⟨r, hrecord, ?_⟩
    cases hp : r.phase <;> simp [hp, acknowledged, InputPhase.settled] at hack haccepted hfailed ⊢
  | cleared => exact .inl fun hmem => (mem_clear.mp hmem).2 rfl

/-- A `Lease` that fails at a receipt because its input is not handed off. -/
theorem Released.not_refused {lease : LeaseCall} (h : Released limits key w) :
    w.next limits label ≠ some (.refused lease key (err .uncommitted)) := by
  intro hnext
  obtain ⟨index, env, thread, shared, -, -, move, -⟩ := moves_of_next hnext
  cases move with
  | refused hblocked hwaiting =>
    obtain ⟨r, hrecord, hphase⟩ := hwaiting rfl
    rcases h with hgone | hsettled
    · exact hgone hblocked
    obtain ⟨d, hread, -⟩ := recordAt_eq_some.mp hrecord
    obtain ⟨r', hrecord', hsettled⟩ := hsettled ⟨d, hread⟩
    obtain rfl : r = r' := mem_unique hrecord hrecord'
    cases hp : r.phase <;> simp [hp, InputPhase.handedOff, InputPhase.settled] at hphase hsettled

/-- Committed receipts do not block their session. In every run of a process in which no `Commit`
finds its input accepted or failed while its receipt is in the fence, once a `Commit` has returned
nil and as long as its receipt is not observed again, no `Lease` fails with `ErrUncommitted` at
that receipt, whatever operations of the journal run. -/
theorem committed_not_refused (limits : Limits) (disk : Disk) (before after : List Label)
    (commit refusal : Label) (call : CommitCall) (lease : LeaseCall) (w₁ w₂ w₃ : World)
    (hclean : Along (step limits) (fun label w => clean limits label w)
      (before ++ commit :: after) ⟨⟨disk, []⟩, []⟩)
    (hbefore : exec (step limits) before ⟨⟨disk, []⟩, []⟩ = some w₁)
    (hreturns : w₁.next limits commit = some (.committed call none))
    (hcommitted : w₁.step limits commit = some w₂)
    (hfresh : Along (step limits) (fun label w => w.observes label ≠ some call.key) after w₂)
    (hafter : exec (step limits) after w₂ = some w₃) :
    w₃.next limits refusal ≠ some (.refused lease call.key (err .uncommitted)) := by
  obtain ⟨-, hclean⟩ := along_append hclean hbefore
  obtain ⟨hclean1, -⟩ := along_cons hclean hcommitted
  have hreleased : Released limits call.key w₃ :=
    exec_keeps (fun label w w' hlabel hstep h => h.step (moves_of_step hstep) hlabel) hfresh
      hafter (Released.of_commit hcommitted hreturns hclean1)
  exact hreleased.not_refused

/-- `m` is enqueued and leased, and a `Commit` is about to return. -/
def committing : List Label :=
  [.journal ⟨.enqueueInput {} [0x73] [0x6D] [] [], {}⟩,
    .journal ⟨.leaseNextInput {} [0x73] [0x6F] ⟨1⟩ 1, {}⟩,
    .callCommit ⟨sampleKey, [0x6F]⟩, .advance 0 {}, .advance 0 {}, .advance 0 {}]

/-- A receipt that a `Commit` has cleared does not stop a later `Lease`, although its input failed
and was retried. -/
theorem committed_not_refused_retry :
    ∃ w₁ w₂ w₃, exec (step defaultLimits) committing ⟨⟨.missing, []⟩, []⟩ = some w₁ ∧
      w₁.step defaultLimits (.advance 0 {}) = some w₂ ∧
      exec (step defaultLimits) (retried ⟨3⟩) w₂ = some w₃ ∧
      w₃.next defaultLimits (.advance 1 {}) ≠
        some (.refused (sampleLease ⟨3⟩) sampleKey (err .uncommitted)) :=
  ⟨_, _, _, rfl, rfl, rfl, committed_not_refused defaultLimits .missing committing
    (retried ⟨3⟩) (.advance 0 {}) (.advance 1 {}) ⟨sampleKey, [0x6F]⟩ (sampleLease ⟨3⟩) _ _ _
    ⟨rfl, rfl, rfl, rfl, rfl, rfl, rfl, rfl, rfl, rfl, trivial⟩
    rfl rfl rfl ⟨nofun, nofun, nofun, trivial⟩ rfl⟩

/-- An acknowledgement whose acceptance another caller stored is committed, and nil is returned.
Then the input fails and is retried, and `Lease` fails with `ErrUncommitted` at its receipt. -/
theorem committed_receipt_blocks :
    ∃ w₁ w₂ w₃,
      exec (step defaultLimits)
        [.journal ⟨.enqueueInput {} [0x73] [0x6D] [] [], {}⟩,
          .journal ⟨.leaseNextInput {} [0x73] [0x6F] ⟨1⟩ 1, {}⟩,
          .observe sampleKey,
          .journal ⟨.markInputAccepted {} [0x73] [0x6D] [0x6F], {}⟩,
          .callCommit ⟨sampleKey, [0x6F]⟩] ⟨⟨.missing, []⟩, []⟩ = some w₁ ∧
      w₁.next defaultLimits (.advance 0 {}) = some (.committed ⟨sampleKey, [0x6F]⟩ none) ∧
      w₁.step defaultLimits (.advance 0 {}) = some w₂ ∧
      exec (step defaultLimits) (retried ⟨3⟩ ++ [.advance 1 { order := [sampleKey] }]) w₂ =
        some w₃ ∧
      w₃.next defaultLimits (.advance 1 {}) =
        some (.refused (sampleLease ⟨3⟩) sampleKey (err .uncommitted)) :=
  ⟨_, _, _, rfl, rfl, rfl, rfl, rfl⟩

end Bria.AcceptedInput
