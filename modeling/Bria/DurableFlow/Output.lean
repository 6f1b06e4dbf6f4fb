import Bria.DurableFlow.Input

/-!
# Delivering an output

`DeliverNextOutput` of `flow.go`. It leases the next output of some sessions, hands it to the sender
and seals it with what the sender returned. The sender is not trusted: it returns any result and any
error, and only an exact receipt confirms an output. Whatever cannot be read as an outcome is sealed
as unknown.
-/

namespace Bria.DurableFlow

open Go MessageJournal Program Process

/-- The loop of `DeliverNextOutput` over the sessions, with what the last lease returned. -/
def leaseEach (flow : Flow) (ctx : Ctx) :
    List GoString → Output × Option Err → Method (Output × Option Err)
  | [], last => return last
  | sessionID :: rest, _ => do
    let now ← callNow
    let (output, e) ← callOutput ctx (.leaseNextOutput sessionID flow.owner now flow.leaseDuration)
    if e.any (·.is .noAvailable) then leaseEach flow ctx rest (output, e) else return (output, e)

section

variable (flow : Flow) (ctx : Ctx) (output : Output)

/-- The lease of `DeliverNextOutput`. -/
def leaseOutput (sessionIDs : List GoString) : Method (Output × Option Err) :=
  if flow.batch && 1 < sessionIDs.length then do
    let now ← callNow
    callOutput ctx (.leaseNextOutputForSessions sessionIDs flow.owner now flow.leaseDuration)
  else leaseEach flow ctx sessionIDs ({}, none)

/-- `markOutputUnknown`. -/
def markOutputUnknown (flow : Flow) (ctx : Ctx) (output : Output) : Method (Option Err) := do
  let (_, e) ← callOutput ctx (.markOutputUnknown output.sessionID output.operationID flow.owner)
  return e

/-- The ends of `deliverLeasedOutput` that seal the output as unknown and return `e`. -/
def sealUnknown (e : Option Err) :
    Method (DeliveryResult × Option Err) := do
  let persistErr ← markOutputUnknown flow ctx output
  return (⟨output.sessionID, output.operationID, output.sequence, .unknown, []⟩,
    joinErrors e persistErr)

/-- The `ProviderOutput` of a leased output. -/
def requestOf : ProviderOutput :=
  ⟨output.sessionID, output.operationID, output.sequence, output.kind, output.payload⟩

/-- The switch of `deliverLeasedOutput` over the state of an exact result. -/
def sealState (delivered : DeliveryResult) : Method (DeliveryResult × Option Err) :=
  let result : DeliveryResult :=
    ⟨output.sessionID, output.operationID, output.sequence, delivered.state, delivered.receipt⟩
  match delivered.state with
  | .confirmed =>
    if blank delivered.receipt then sealUnknown flow ctx output (some (err .invalidDelivery))
    else do
      match ← callOutput ctx (.confirmOutput output.sessionID output.operationID flow.owner
          delivered.receipt) with
      | (_, none) => return (result, none)
      | (_, some confirmErr) => sealUnknown flow ctx output (some confirmErr)
  | .failed => do
    let (_, e) ← callOutput ctx (.markOutputFailed output.sessionID output.operationID flow.owner)
    return (result, e)
  | .unknown => do
    let e ← markOutputUnknown flow ctx output
    return (result, e)
  | .other _ => sealUnknown flow ctx output (some (err .invalidDelivery))

/-- `deliverLeasedOutput` after the sender has returned. -/
def sealDelivery (delivered : DeliveryResult) (deliveryErr : Option Err) :
    Method (DeliveryResult × Option Err) :=
  if deliveryErr.isSome then sealUnknown flow ctx output deliveryErr
  else if delivered.sessionID ≠ output.sessionID ∨ delivered.operationID ≠ output.operationID ∨
      delivered.sequence ≠ output.sequence then
    sealUnknown flow ctx output (some (err .invalidDelivery))
  else if delivered.state ≠ .confirmed ∧ delivered.receipt ≠ [] then
    sealUnknown flow ctx output (some (err .invalidDelivery))
  else sealState flow ctx output delivered

/-- `deliverLeasedOutput`. -/
def deliverLeasedOutput :
    Method (DeliveryResult × Option Err) := do
  let (delivered, deliveryErr) ← callDeliver ctx (requestOf output)
  sealDelivery flow ctx.withoutCancel output delivered deliveryErr

end

/-- `DeliverNextOutput`. -/
def deliverNextOutput (flow : Flow) (ctx : Ctx) (sessionIDs : List GoString) :
    Method (DeliveryResult × Option Err) :=
  if !flow.sender then return ({}, some (err .outputSenderRequired))
  else if sessionIDs = [] then return ({}, some (err .noAvailable))
  else do
    match ← leaseOutput flow ctx sessionIDs with
    | (_, some e) => return ({}, some e)
    | (output, none) => deliverLeasedOutput flow ctx output

/-! ## The lease -/

/-- A call that leases an output. -/
def Done.LeasesOutput : Done → Prop
  | .output (.leaseNextOutput ..) .. | .output (.leaseNextOutputForSessions ..) .. => True
  | _ => False

/-- The file holds the output, pending. -/
def Waits (limits : Limits) (disk : Disk) (sessionID operationID : GoString) : Prop :=
  ∃ loaded r, read limits disk = .ok loaded ∧
    lookupOutput loaded sessionID operationID = some r ∧ r.phase = .pending

variable {limits : Limits} {flow : Flow} {ctx : Ctx} {p p' : Process} {output : Output}
  {e : Option Err} {done : List Done} {request : ProviderOutput}

variable {sessionIDs : List GoString}

/-- The loop leases an output of one of the sessions, or returns the error of the last lease. -/
theorem leaseEach_spec {last : Output × Option Err}
    (h : Runs limits (leaseEach flow ctx sessionIDs last) p (output, e) p') :
    (∃ done, Extends limits p p' done ∧ ∀ entry ∈ done, entry.LeasesOutput) ∧
      (e = none → sessionIDs ≠ [] ∨ last.2 ≠ none →
        Waits limits p'.shared.disk output.sessionID output.operationID) := by
  induction sessionIDs generalizing p last with
  | nil =>
    obtain ⟨rfl, rfl⟩ := runs_pure.mp h
    exact ⟨⟨[], .refl rfl rfl, by simp⟩, fun hnil hsome => by simp [hnil] at hsome⟩
  | cons sessionID rest ih =>
    obtain ⟨now, p0, hnow, hcall⟩ := runs_bind.mp h
    obtain rfl := runs_callNow hnow
    obtain ⟨⟨leased, e'⟩, p1, hlease, hrest⟩ := runs_bind.mp hcall
    obtain ⟨context, faults, hext, hrun⟩ := runs_callOutput hlease
    dsimp only at hrest
    split_ifs at hrest with hnone
    · obtain ⟨⟨done, hext1, hdone⟩, hwaits⟩ := ih hrest
      refine ⟨⟨_, hext.trans hext1, ?_⟩, fun hnil _ => hwaits hnil (.inr ?_)⟩
      · exact forall_mem_append.mpr ⟨by simp [Done.LeasesOutput], hdone⟩
      rintro rfl
      simp at hnone
    obtain ⟨rfl, rfl, rfl⟩ := runs_pure_pair hrest
    refine ⟨⟨_, hext, by simp [Done.LeasesOutput]⟩, ?_⟩
    rintro rfl -
    exact leaseNextOutputForSessions_nil hrun

/-- The lease of `DeliverNextOutput` calls the journal's leases, and the output that it returns
without an error waits in the journal. -/
theorem leaseOutput_spec (h : Runs limits (leaseOutput flow ctx sessionIDs) p (output, e) p') :
    (∃ done, Extends limits p p' done ∧ ∀ entry ∈ done, entry.LeasesOutput) ∧
      (e = none → sessionIDs ≠ [] →
        Waits limits p'.shared.disk output.sessionID output.operationID) := by
  unfold leaseOutput at h
  split_ifs at h
  · obtain ⟨now, p0, hnow, hcall⟩ := runs_bind.mp h
    obtain rfl := runs_callNow hnow
    obtain ⟨context, faults, hext, hrun⟩ := runs_callOutput hcall
    refine ⟨⟨_, hext, by simp [Done.LeasesOutput]⟩, ?_⟩
    rintro rfl -
    exact leaseNextOutputForSessions_nil hrun
  obtain ⟨hdone, hwaits⟩ := leaseEach_spec h
  exact ⟨hdone, fun hnil hsome => hwaits hnil (.inl hsome)⟩

/-! ## The seal -/

/-- A call that seals an output. -/
def Done.Seals : Done → Prop
  | .output (.confirmOutput ..) .. | .output (.markOutputFailed ..) ..
  | .output (.markOutputUnknown ..) .. => True
  | _ => False

/-- What the journal holds for an output that was handed to the sender: an outcome, and
confirmation only for the exact receipt that the sender returned. -/
def Sealed (limits : Limits) (disk : Disk) (request : ProviderOutput) (delivered : DeliveryResult)
    (deliveryErr : Option Err) : Prop :=
  ∃ loaded r, read limits disk = .ok loaded ∧
    lookupOutput loaded request.sessionID request.operationID = some r ∧
    (r.phase = .confirmed ∨ r.phase = .failed ∨ r.phase = .unknown) ∧
    (r.phase = .confirmed → deliveryErr = none ∧ delivered.sessionID = request.sessionID ∧
      delivered.operationID = request.operationID ∧ delivered.sequence = request.sequence ∧
      delivered.state = .confirmed ∧ blank delivered.receipt = false ∧
      r.receipt = delivered.receipt)

variable {output : Output} {delivered result : DeliveryResult} {deliveryErr e : Option Err}

theorem sealUnknown_asks : (sealUnknown flow ctx output e).Asks (Request.Adds Done.Seals) := by
  refine .bind (.bind (.request fun _ _ _ _ => trivial) fun _ => .pure _) fun _ => .pure _

/-- An end that seals as unknown for an error returns one. -/
theorem sealUnknown_error {e : Err}
    (h : Runs limits (sealUnknown flow ctx output (some e)) p (result, none) p') : False := by
  obtain ⟨persistErr, p1, -, hend⟩ := runs_bind.mp h
  obtain ⟨heq, -⟩ := runs_pure.mp hend
  have hnone := (Prod.mk.inj heq).2
  simpa using (joinErrors_eq_none.mp hnone.symm).1

theorem sealDelivery_asks :
    (sealDelivery flow ctx output delivered deliveryErr).Asks (Request.Adds Done.Seals) := by
  have hcall : ∀ {call : OutputCall} {context : Ctx},
      (∀ ctx faults result error, (Done.output call ctx faults result error).Seals) →
      (callOutput context call).Asks (Request.Adds Done.Seals) := fun hseals => .request hseals
  unfold sealDelivery
  split_ifs
  · exact sealUnknown_asks
  · exact sealUnknown_asks
  · exact sealUnknown_asks
  unfold sealState
  cases delivered.state with
  | confirmed =>
    split_ifs
    · exact sealUnknown_asks
    refine .bind (hcall fun _ _ _ _ => trivial) ?_
    rintro ⟨_, _ | confirmErr⟩
    · exact .pure _
    · exact sealUnknown_asks
  | failed => exact .bind (hcall fun _ _ _ _ => trivial) fun _ => .pure _
  | unknown => exact .bind (.bind (hcall fun _ _ _ _ => trivial) fun _ => .pure _) fun _ => .pure _
  | other => exact sealUnknown_asks

/-- A call of the journal that returned no error. -/
def Done.Succeeded : Done → Prop
  | .output _ _ _ _ error => error = none
  | _ => False

/-- The switch returns no error only after one write that returned none, and that write has put
the state into the journal. -/
theorem sealState_nil (h : Runs limits (sealState flow ctx output delivered) p (result, none) p') :
    (∃ d r, read limits p'.shared.disk = .ok d ∧
      lookupOutput d output.sessionID output.operationID = some r ∧
      (delivered.state = .confirmed ∧ blank delivered.receipt = false ∧ r.phase = .confirmed ∧
          r.receipt = delivered.receipt ∨
        r.phase = .failed ∨ r.phase = .unknown)) ∧
      ∃ done, Extends limits p p' done ∧ ∀ entry ∈ done, entry.Succeeded := by
  unfold sealState at h
  cases hstate : delivered.state with
  | confirmed =>
    simp only [hstate] at h
    split_ifs at h with hblank
    · exact (sealUnknown_error h).elim
    obtain ⟨⟨confirmed, confirmErr⟩, p1, hcall, hend⟩ := runs_bind.mp h
    rcases confirmErr with _ | confirmErr
    · obtain ⟨-, rfl⟩ := runs_pure.mp hend
      obtain ⟨context, faults, hext, hrun⟩ := runs_callOutput hcall
      obtain ⟨d, r, hread, hr, hphase, hreceipt⟩ := confirmOutput_nil hrun
      exact ⟨⟨d, r, hread, hr, .inl ⟨rfl, by simpa using hblank, hphase, hreceipt⟩⟩, _, hext,
        by simp [Done.Succeeded]⟩
    · exact (sealUnknown_error hend).elim
  | failed =>
    simp only [hstate] at h
    obtain ⟨⟨failed, e⟩, p1, hcall, hend⟩ := runs_bind.mp h
    obtain ⟨-, rfl, rfl⟩ := runs_pure_pair hend
    obtain ⟨context, faults, hext, hrun⟩ := runs_callOutput hcall
    obtain ⟨d, r, hread, hr, hphase⟩ := finishOutput_nil hrun
    exact ⟨⟨d, r, hread, hr, .inr (.inl hphase)⟩, _, hext, by simp [Done.Succeeded]⟩
  | unknown =>
    simp only [hstate] at h
    obtain ⟨e, p1, hmark, hend⟩ := runs_bind.mp h
    obtain ⟨⟨marked, e'⟩, p2, hcall, hlast⟩ := runs_bind.mp hmark
    obtain ⟨rfl, rfl⟩ := runs_pure.mp hlast
    obtain ⟨-, rfl, rfl⟩ := runs_pure_pair hend
    obtain ⟨context, faults, hext, hrun⟩ := runs_callOutput hcall
    obtain ⟨d, r, hread, hr, hphase⟩ := finishOutput_nil hrun
    exact ⟨⟨d, r, hread, hr, .inr (.inr hphase)⟩, _, hext, by simp [Done.Succeeded]⟩
  | other =>
    simp only [hstate] at h
    exact (sealUnknown_error h).elim

/-- A seal that returns no error has written the outcome, and no write of it failed. -/
theorem sealDelivery_nil
    (h : Runs limits (sealDelivery flow ctx output delivered deliveryErr) p (result, none) p') :
    Sealed limits p'.shared.disk (requestOf output) delivered deliveryErr ∧
      ∃ done, Extends limits p p' done ∧ ∀ entry ∈ done, entry.Succeeded := by
  unfold sealDelivery at h
  split_ifs at h with herr hids hreceipt
  · obtain ⟨e, rfl⟩ := Option.isSome_iff_exists.mp herr
    exact (sealUnknown_error h).elim
  · exact (sealUnknown_error h).elim
  · exact (sealUnknown_error h).elim
  have hnoerr : deliveryErr = none := by simpa using herr
  simp only [ne_eq, not_or, not_not] at hids
  obtain ⟨⟨d, r, hread, hr, hphase⟩, hdone⟩ := sealState_nil h
  refine ⟨⟨d, r, hread, hr, ?_, ?_⟩, hdone⟩
  · exact hphase.imp_left fun h => h.2.2.1
  intro hconfirmed
  rcases hphase with ⟨hstate, hblank, -, hreceipt⟩ | h | h
  · exact ⟨hnoerr, hids.1, hids.2.1, hids.2.2, hstate, hblank, hreceipt⟩
  · simp [h] at hconfirmed
  · simp [h] at hconfirmed

/-! ## The whole call -/

/-- A call returns an error before anything is handed to the sender, or it leases an output that
waits, hands it out once and seals it. -/
theorem deliverNextOutput_cases
    (h : Runs limits (deliverNextOutput flow ctx sessionIDs) p (result, e) p') :
    (∃ done, Extends limits p p' done ∧ ∀ entry ∈ done, entry.LeasesOutput) ∨
      ∃ p1 p2 leased output delivered deliveryErr, Extends limits p p1 leased ∧
        (∀ entry ∈ leased, entry.LeasesOutput) ∧
        Waits limits p1.shared.disk output.sessionID output.operationID ∧
        Extends limits p1 p2 [.delivered (requestOf output) delivered deliveryErr] ∧
        Runs limits (sealDelivery flow ctx.withoutCancel output delivered deliveryErr) p2
          (result, e) p' := by
  unfold deliverNextOutput at h
  split_ifs at h with hsender hsessions
  · obtain ⟨-, rfl⟩ := runs_pure.mp h
    exact .inl ⟨[], .refl rfl rfl, by simp⟩
  · obtain ⟨-, rfl⟩ := runs_pure.mp h
    exact .inl ⟨[], .refl rfl rfl, by simp⟩
  obtain ⟨⟨output, e'⟩, p1, hlease, hrest⟩ := runs_bind.mp h
  obtain ⟨⟨leased, hext, hleased⟩, hwaits⟩ := leaseOutput_spec hlease
  rcases e' with _ | e'
  · obtain ⟨⟨delivered, deliveryErr⟩, p2, hdeliver, hseal⟩ := runs_bind.mp hrest
    exact .inr ⟨p1, p2, leased, output, delivered, deliveryErr, hext, hleased,
      hwaits rfl hsessions, runs_callDeliver hdeliver, hseal⟩
  obtain ⟨-, rfl⟩ := runs_pure.mp hrest
  exact .inl ⟨leased, hext, hleased⟩

/-- The entries of a run are determined by the logs. -/
theorem Process.Extends.unique {done' : List Done} (h : Extends limits p p' done)
    (h' : Extends limits p p' done') : done = done' :=
  List.append_cancel_left (h.log.symm.trans h'.log)

/-- An output that a call hands to the sender waited in the journal, after leases only. -/
theorem handed_waits (h : Runs limits (deliverNextOutput flow ctx sessionIDs) p (result, e) p')
    (hext : Extends limits p p' done) (hmem : .delivered request delivered deliveryErr ∈ done) :
    ∃ leased, (∀ entry ∈ leased, entry.LeasesOutput) ∧
      Waits limits (run limits p.shared.disk (events leased)) request.sessionID
        request.operationID := by
  rcases deliverNextOutput_cases h with ⟨leased, hleased, hall⟩ |
    ⟨p1, p2, leased, output, delivered', deliveryErr', hleased, hall, hwaits, hhanded, hseal⟩
  · rw [hext.unique hleased] at hmem
    exact (hall _ hmem).elim
  obtain ⟨sealing, hsealed, hseals⟩ := Adds.of_asks hseal sealDelivery_asks
  rw [hext.unique ((hleased.trans hhanded).trans hsealed)] at hmem
  rw [hleased.disk] at hwaits
  rcases mem_append.mp hmem with hmem | hmem
  · rcases mem_append.mp hmem with hmem | hmem
    · exact (hall _ hmem).elim
    obtain ⟨rfl, -, -⟩ := Done.delivered.inj (mem_singleton.mp hmem)
    exact ⟨leased, hall, hwaits⟩
  · exact (hseals _ hmem).elim

/-- An output that has an outcome waits again only after a retry. -/
theorem Sealed.not_waits {disk : Disk} {events : List Event}
    (h : Sealed limits disk request delivered deliveryErr)
    (hretry : ∀ event ∈ events, ∀ context,
      event.op ≠ .retryOutput context request.sessionID request.operationID) :
    ¬ Waits limits (run limits disk events) request.sessionID request.operationID := by
  rintro ⟨loaded', r', hread', hr', hpending⟩
  obtain ⟨loaded, r, hread, hr, hphase, -⟩ := h
  obtain ⟨r1, hr1, hkept⟩ := run_outputKept hread hread' hr
  obtain rfl : r1 = r' := mem_unique hr1 hr'
  have hsettled : r.phase ≠ .pending := by
    rcases hphase with h | h | h <;> simp [h]
  obtain ⟨before, context, faults, after, rfl, -⟩ := hkept.returned hsettled hpending
  exact hretry _ (mem_append_right _ mem_cons_self) context rfl

/-- The steps of leases are no retries. -/
theorem Done.LeasesOutput.not_retry {entry : Done} {event : Event} {context : Context}
    {sessionID operationID : GoString} (h : entry.LeasesOutput)
    (hevent : entry.event = some event) :
    event.op ≠ .retryOutput context sessionID operationID := by
  cases entry with
  | output call =>
    simp only [Done.event, some.injEq] at hevent
    rw [← hevent]
    cases call with
    | leaseNextOutput | leaseNextOutputForSessions => simp [OutputCall.op]
    | confirmOutput | markOutputFailed | markOutputUnknown => exact h.elim
  | input | reported | delivered => exact h.elim

/-- `DeliverNextOutput`, for every journal, every sender and every failure. If it handed an output to
the sender and returned no error, the journal holds an outcome for the output, confirmed only for
the exact receipt of the sender. Whatever happens to the journal from then on without a retry of the
output, no call hands it out again. And if a write after the sender's return failed, the call
returned an error. -/
theorem delivered_output_sealed (limits : Limits) (flow : Flow) (ctx : Ctx)
    (sessionIDs : List GoString) (start finish : Process) (result : DeliveryResult)
    (error : Option Err)
    (h : Runs limits (deliverNextOutput flow ctx sessionIDs) start (result, error) finish) :
    ∃ done, Extends limits start finish done ∧
      ∀ before request delivered deliveryErr after,
        done = before ++ .delivered request delivered deliveryErr :: after →
        (error = none → Sealed limits finish.shared.disk request delivered deliveryErr ∧
          ∀ events later flow' ctx' sessionIDs' finish' result' error' done',
            (∀ event ∈ events, ∀ context,
              event.op ≠ .retryOutput context request.sessionID request.operationID) →
            later.shared.disk = run limits finish.shared.disk events →
            Runs limits (deliverNextOutput flow' ctx' sessionIDs') later (result', error') finish' →
            Extends limits later finish' done' →
            ∀ request' delivered' deliveryErr',
              .delivered request' delivered' deliveryErr' ∈ done' →
              (request'.sessionID, request'.operationID) ≠
                (request.sessionID, request.operationID)) ∧
        ((∃ call context faults output e,
          .output call context faults output (some e) ∈ after) → error ≠ none) := by
  rcases deliverNextOutput_cases h with ⟨leased, hleased, hall⟩ |
    ⟨p1, p2, leased, output, delivered, deliveryErr, hleased, hall, -, hhanded, hseal⟩
  · refine ⟨leased, hleased, ?_⟩
    rintro before request delivered deliveryErr after rfl
    exact (hall _ (mem_append_right _ mem_cons_self)).elim
  obtain ⟨sealing, hsealed, hseals⟩ := Adds.of_asks hseal sealDelivery_asks
  refine ⟨leased ++ .delivered (requestOf output) delivered deliveryErr :: sealing, ?_, ?_⟩
  · simpa using (hleased.trans hhanded).trans hsealed
  intro before request delivered' deliveryErr' after hsplit
  -- There is one delivery, between the leases and the seal.
  have hfront : .delivered request delivered' deliveryErr' ∉ leased := hall _
  have hback : .delivered request delivered' deliveryErr' ∉ sealing := hseals _
  obtain ⟨-, heq, rfl⟩ := (List.append_cons_inj_of_notMem hfront hback).mp hsplit
  obtain ⟨rfl, rfl, rfl⟩ := Done.delivered.inj heq
  constructor
  · rintro rfl
    have hsealing := (sealDelivery_nil hseal).1
    refine ⟨hsealing, ?_⟩
    intro events later flow' ctx' sessionIDs' finish' result' error' done' hretry hlater h' hext'
      request' delivered' deliveryErr' hmem heq
    obtain ⟨rels, hrels, hwaits⟩ := handed_waits h' hext' hmem
    obtain ⟨hsid, hoid⟩ := Prod.mk.inj heq
    rw [hlater, ← run_append, hsid, hoid] at hwaits
    refine hsealing.not_waits (forall_mem_append.mpr ⟨hretry, ?_⟩) hwaits
    exact forall_mem_events fun entry hentry event hevent _ => (hrels entry hentry).not_retry hevent
  · rintro ⟨call, context, faults, out, e, hmem⟩ rfl
    obtain ⟨done, hext, hdone⟩ := (sealDelivery_nil hseal).2
    rw [hsealed.unique hext] at hmem
    simpa [Done.Succeeded] using hdone _ hmem

/-- An exact receipt for the one output of a session. -/
def exactReceipt : DeliveryResult := ⟨[0x73], [0x70], 1, .confirmed, [0x72]⟩

/-- The one output of a session is handed out with an exact receipt, and is sealed. -/
theorem delivered_output_confirmed :
    ∃ finish request, request.operationID = [0x70] ∧
      Sealed defaultLimits (shared finish).disk request exactReceipt none := by
  obtain ⟨done, hext, hsealed⟩ := delivered_output_sealed defaultLimits plainFlow .cancellable
    [[0x73]]
    ⟨⟨run defaultLimits .missing [⟨.enqueueOutput {} [0x73] [0x70] [0x6B] [], {}⟩], []⟩, []⟩ _ _ _
    (runs_play (surroundings defaultLimits) (Request.calm ⟨1⟩ exactReceipt) _ _)
  obtain ⟨first, last, hdone⟩ : ∃ first last, done =
      [first, .delivered ⟨[0x73], [0x70], 1, [0x6B], []⟩ exactReceipt none, last] :=
    ⟨_, _, hext.log.symm⟩
  exact ⟨_, _, rfl, ((hsealed [first] _ _ _ [last] hdone).1 rfl).1⟩

end Bria.DurableFlow
