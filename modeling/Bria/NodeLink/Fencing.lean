import Bria.NodeLink.Processor

/-!
# The fence and the application of envelopes

Any number of calls of `Process` run beside each other and beside `Accept`. A call that the fence
let through waits until it gets on, and by then the fence may have moved: an envelope of an old
generation is applied after a newer one was accepted (`applied_late`). In every run in which no call
waits while a newer generation is accepted, this does not happen. Whatever the order, the envelopes
of one generation that are applied have one coordinator (`applied_within_generation`).
-/

namespace Bria.NodeLink

open Go Computer Machine

/-- A node: its fence, its ledger, the calls that passed the fence and did not go on yet, and the
envelopes whose application began, each with the term of the fence at that moment. -/
structure Node where
  fence : CoordinatorTerm
  ledger : Ledger
  waiting : List Envelope := []
  begun : List (Envelope × CoordinatorTerm) := []

/-- A step of a node. -/
inductive NodeStep where
  | accept (term : CoordinatorTerm)
  | process (identity : ChannelIdentity) (envelope : Envelope)
  /-- One of the waiting calls goes on. -/
  | deliver (envelope : Envelope) (call : Applying)

/-- The node after a step, none if no such call waits. -/
def Node.step (codec : Codec) (localID : GoString) : NodeStep → Node → Option Node
  | .accept term, node =>
    some { node with fence := match Computer.accept node.fence term with
      | .ok fence => fence
      | .error _ => node.fence }
  | .process identity envelope, node =>
    some { node with waiting := match enter codec localID node.fence identity envelope with
      | .ok _ => envelope :: node.waiting
      | .error _ => node.waiting }
  | .deliver envelope call, node =>
    let delivery := NodeLink.deliver codec envelope call node.ledger
    if envelope ∈ node.waiting then
      some { node with
        ledger := delivery.ledger
        waiting := node.waiting.erase envelope
        begun := if delivery.begun then (envelope, node.fence) :: node.begun else node.begun }
    else none

variable {codec : Codec} {localID : GoString} {node node' : Node} {envelope : Envelope}
  {fence : CoordinatorTerm} {i : NodeStep}

/-! ## The fence -/

/-- An envelope passes the fence only with the term of the fence. -/
theorem term_of_enter {identity : ChannelIdentity}
    (h : enter codec localID fence identity envelope = .ok ()) : fence = envelope.term := by
  iterate 3 replace h := of_check h
  obtain ⟨executorID, -, h⟩ := bind_eq_ok.mp h
  iterate 3 replace h := of_check h
  exact (validate_eq_ok.mp h).2

theorem accept_eq_ok {term next : CoordinatorTerm} (h : Computer.accept fence term = .ok next) :
    next = fence ∨ next = term ∧ fence.generation < term.generation := by
  obtain ⟨hterm, h⟩ := check_eq_ok.mp h
  split at h
  · rename_i hnewer
    obtain rfl := ok.inj h
    refine .inr ⟨rfl, ?_⟩
    have hgeneration : term.generation ≠ 0 := by
      simp only [validateTerm, check_eq_ok, refuse_eq_ok, decide_eq_false_iff_not] at hterm
      exact hterm.1
    simp only [or_eq_true, decide_eq_true_eq] at hnewer
    omega
  split at h
  · cases h
  split at h
  · cases h
  · exact .inl (ok.inj h).symm

/-- What each step does to a node. -/
theorem step_cases (h : Node.step codec localID i node = some node') :
    (∃ term, i = .accept term ∧ (node' = node ∨
        node.fence.generation < term.generation ∧ node' = { node with fence := term })) ∨
      (node' = node ∨ ∃ envelope, node.fence = envelope.term ∧
        node' = { node with waiting := envelope :: node.waiting }) ∨
      ∃ envelope ∈ node.waiting, ∃ ledger, ∃ begun : Bool, node' = { node with
        ledger
        waiting := node.waiting.erase envelope
        begun := if begun then (envelope, node.fence) :: node.begun else node.begun } := by
  cases i with
  | accept term =>
    obtain rfl := some.inj h
    refine .inl ⟨term, rfl, ?_⟩
    rcases haccept : Computer.accept node.fence term with e | next
    · exact .inl rfl
    rcases accept_eq_ok haccept with rfl | ⟨rfl, hnewer⟩
    · exact .inl rfl
    · exact .inr ⟨hnewer, rfl⟩
  | process identity envelope =>
    obtain rfl := some.inj h
    refine .inr (.inl ?_)
    cases henter : enter codec localID node.fence identity envelope with
    | error e => exact .inl rfl
    | ok u => exact .inr ⟨envelope, term_of_enter henter, rfl⟩
  | deliver envelope call =>
    obtain ⟨hwaiting, heq⟩ := Option.ite_none_right_eq_some.mp h
    obtain rfl := some.inj heq
    exact .inr (.inr ⟨envelope, hwaiting, _, _, rfl⟩)

/-! ## One coordinator for a generation -/

/-- The envelope has passed the fence of the node. -/
def Passed (node : Node) (envelope : Envelope) : Prop :=
  envelope ∈ node.waiting ∨ ∃ term, (envelope, term) ∈ node.begun

/-- An envelope that goes on has passed the fence, and no other passes. -/
theorem passed_of_deliver {other : Envelope} {ledger : Ledger} {begun : Bool}
    (hwaiting : envelope ∈ node.waiting)
    (h : Passed { node with
      ledger
      waiting := node.waiting.erase envelope
      begun := if begun then (envelope, node.fence) :: node.begun else node.begun } other) :
    Passed node other := by
  rcases h with h | ⟨term, h⟩
  · exact .inl (List.mem_of_mem_erase h)
  cases begun with
  | false => exact .inr ⟨term, h⟩
  | true =>
    rcases mem_cons.mp h with heq | h
    · obtain ⟨rfl, -⟩ := Prod.mk.inj heq
      exact .inl hwaiting
    · exact .inr ⟨term, h⟩

/-- What passed the fence has its term or an earlier one, and one term for each generation. -/
structure Ordered (node : Node) : Prop where
  earlier : ∀ envelope, Passed node envelope → envelope.generation < node.fence.generation ∨
    envelope.term = node.fence
  single : ∀ left right, Passed node left → Passed node right →
    left.generation = right.generation → left.term = right.term

/-- Every step keeps the order. -/
theorem Ordered.step (hstep : Node.step codec localID i node = some node') (h : Ordered node) :
    Ordered node' := by
  rcases step_cases hstep with ⟨term, -, hterm⟩ | hprocess | ⟨envelope, hwaiting, ledger, begun, rfl⟩
  · rcases hterm with rfl | ⟨hnewer, rfl⟩
    · exact h
    refine ⟨fun envelope hpassed => .inl ?_, h.single⟩
    rcases h.earlier envelope hpassed with hearlier | heq
    · exact Nat.lt_trans hearlier hnewer
    have hgeneration : envelope.generation = node.fence.generation :=
      congrArg CoordinatorTerm.generation heq
    exact hgeneration ▸ hnewer
  · rcases hprocess with rfl | ⟨envelope, hfence, rfl⟩
    · exact h
    -- The new envelope has the term of the fence.
    have hcases : ∀ other, Passed { node with waiting := envelope :: node.waiting } other →
        other = envelope ∨ Passed node other := by
      rintro other (hmem | hbegun)
      · exact (mem_cons.mp hmem).imp_right .inl
      · exact .inr (.inr hbegun)
    have hsame : ∀ other, Passed node other → other.generation = envelope.generation →
        other.term = envelope.term := by
      intro other hother hgeneration
      rcases h.earlier other hother with hearlier | heq
      · have hnow : node.fence.generation = envelope.generation :=
          congrArg CoordinatorTerm.generation hfence
        omega
      · exact heq.trans hfence
    refine ⟨fun other hother => ?_, fun left right hleft hright hgeneration => ?_⟩
    · rcases hcases other hother with rfl | hother
      · exact .inr hfence.symm
      · exact h.earlier other hother
    rcases hcases left hleft with hnew | hbefore <;>
      rcases hcases right hright with hnew' | hbefore'
    · rw [hnew, hnew']
    · rw [hnew] at hgeneration ⊢
      exact (hsame right hbefore' hgeneration.symm).symm
    · rw [hnew'] at hgeneration ⊢
      exact hsame left hbefore hgeneration
    · exact h.single left right hbefore hbefore' hgeneration
  · exact ⟨fun other hother => h.earlier other (passed_of_deliver hwaiting hother),
      fun left right hleft hright => h.single left right (passed_of_deliver hwaiting hleft)
        (passed_of_deliver hwaiting hright)⟩

/-! ## No old generation -/

/-- No call waits while a newer generation is accepted. -/
def Quiet : NodeStep → Node → Prop
  | .accept term, node => node.fence.generation < term.generation → node.waiting = []
  | _, _ => True

/-- What waits has the term of the fence, and so had what began. -/
structure Current (node : Node) : Prop where
  waiting : ∀ envelope ∈ node.waiting, envelope.term = node.fence
  begun : ∀ envelope term, (envelope, term) ∈ node.begun → envelope.term = term

/-- Every quiet step keeps this. -/
theorem Current.step (hquiet : Quiet i node) (hstep : Node.step codec localID i node = some node')
    (h : Current node) : Current node' := by
  rcases step_cases hstep with ⟨term, rfl, hterm⟩ | hprocess | ⟨envelope, hwaiting, ledger, begun, rfl⟩
  · rcases hterm with rfl | ⟨hnewer, rfl⟩
    · exact h
    refine ⟨fun envelope hmem => ?_, h.begun⟩
    have hnone : node.waiting = [] := hquiet hnewer
    rw [hnone] at hmem
    cases hmem
  · rcases hprocess with rfl | ⟨envelope, hfence, rfl⟩
    · exact h
    refine ⟨fun other hother => ?_, h.begun⟩
    rcases mem_cons.mp hother with rfl | hother
    · exact hfence.symm
    · exact h.waiting other hother
  refine ⟨fun other hother => h.waiting other (List.mem_of_mem_erase hother),
    fun other term hother => ?_⟩
  cases begun with
  | false => exact h.begun other term hother
  | true =>
    rcases mem_cons.mp hother with heq | hother
    · obtain ⟨rfl, rfl⟩ := Prod.mk.inj heq
      exact h.waiting other hwaiting
    · exact h.begun other term hother

/-- If no call waits whenever a newer generation is accepted, no application begins for an envelope
whose generation is smaller than the accepted one. In every run, the envelopes of one generation that
are applied have one coordinator. -/
theorem applied_within_generation (codec : Codec) (localID : GoString) (fence : CoordinatorTerm)
    (ledger : Ledger) (run : List NodeStep) (node : Node)
    (hrun : exec (Node.step codec localID) run { fence, ledger } = some node) :
    (Along (Node.step codec localID) Quiet run { fence, ledger } →
        ∀ envelope accepted, (envelope, accepted) ∈ node.begun →
          accepted.generation ≤ envelope.generation) ∧
      ∀ left right accepted accepted', (left, accepted) ∈ node.begun →
        (right, accepted') ∈ node.begun → left.generation = right.generation →
        left.coordinatorID = right.coordinatorID := by
  refine ⟨fun hquiet envelope accepted hmem => ?_,
    fun left right accepted accepted' hleft hright hgeneration => ?_⟩
  · have hcurrent : Current node :=
      exec_keeps (fun i s s' hi hstep h => h.step hi hstep) hquiet hrun ⟨nofun, nofun⟩
    have hterm := hcurrent.begun envelope accepted hmem
    rw [← hterm]
    exact Nat.le_refl envelope.generation
  have hordered : Ordered node := by
    refine exec_invariant (fun i s s' hstep h => h.step hstep) hrun ⟨?_, ?_⟩
    · rintro envelope (h | ⟨term, h⟩) <;> cases h
    · rintro left right (h | ⟨term, h⟩) <;> cases h
  have hterm := hordered.single left right (.inr ⟨accepted, hleft⟩) (.inr ⟨accepted', hright⟩)
    hgeneration
  exact congrArg CoordinatorTerm.coordinatorID hterm

/-! ## A late application -/

/-- A codec that accepts every payload and gives all envelopes one digest. -/
def plainCodec : Codec := { validJSON := fun _ => true, digestEnvelope := fun _ => ofText "d" }

/-- A command of the coordinator `a` in its first generation. -/
def order : Envelope :=
  { version := 1, kind := .command, operationID := ofText "o", generation := 1
    coordinatorID := ofText "a", sourceComputerID := ofText "a", targetComputerID := ofText "b"
    payload := [] }

/-- The channel from the coordinator. -/
def fromCoordinator : ChannelIdentity := ⟨ofText "b", ofText "a", ofText "b", ofText "c", true⟩

/-- The first coordinator of a node without entries. -/
def firstTerm : Node := { fence := ⟨ofText "a", 1⟩, ledger := ⟨true, ∅, ∅⟩ }

/-- The command goes on before the second generation is accepted. -/
def promptly : List NodeStep :=
  [.process fromCoordinator order, .deliver order {}, .accept ⟨ofText "b", 2⟩]

/-- A command that goes on at once is applied in its generation. -/
theorem order_applied :
    ∃ node accepted, exec (Node.step plainCodec (ofText "b")) promptly firstTerm = some node ∧
      node.begun = [(order, accepted)] ∧ accepted.generation ≤ order.generation := by
  have hquiet : Along (Node.step plainCodec (ofText "b")) Quiet promptly firstTerm := by
    refine along_intro trivial fun first hfirst => along_intro trivial fun second hsecond =>
      along_intro (fun _ => ?_) fun _ _ => trivial
    obtain rfl := some.inj hfirst
    have hwaiting : some [] = some second.waiting := congrArg (Option.map Node.waiting) hsecond
    exact (some.inj hwaiting).symm
  exact ⟨_, ⟨ofText "a", 1⟩, rfl, rfl, (applied_within_generation plainCodec (ofText "b") _ _
    promptly _ rfl).1 hquiet order ⟨ofText "a", 1⟩ mem_cons_self⟩

/-- The second generation is accepted while a command of the first waits, and then the command is
applied. -/
theorem applied_late :
    ∃ node, exec (Node.step plainCodec (ofText "b"))
        [.process fromCoordinator order, .accept ⟨ofText "b", 2⟩, .deliver order {}] firstTerm =
        some node ∧
      node.begun = [(order, ⟨ofText "b", 2⟩)] ∧ order.generation < 2 :=
  ⟨_, rfl, rfl, by decide⟩

end Bria.NodeLink
