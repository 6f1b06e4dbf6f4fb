import Bria.CoordinatorTransfer.Moves

/-!
# What an offer keeps

An offer is copied, sent, written and read back. Each of these may exchange its snapshot for the
snapshot encoded and decoded, and reading it back replaces bytes that are not UTF-8. `Offer.face` is
what `sameOffer` compares; `Proper` collects what is true of every offer of a source, and an offer
that is proper reads back with the same face.
-/

namespace Bria.CoordinatorTransfer

open Go Computer NodeLink

variable {S : Type}

/-- The digest of a bundle is a text, and the copied bundle has the digest of the original. -/
class LawfulBundle (S : Type) [Bundle S] : Prop where
  digest_clone : ∀ s : S, Bundle.digest (Bundle.clone s) = Bundle.digest s
  digest_text : ∀ (s : S) (d : GoString), Bundle.digest s = .ok d → jsonText d = d

/-- An offer without its snapshot. -/
def Offer.face (offer : Offer S) : Offer Unit where
  id := offer.id
  source := offer.source
  target := offer.target
  targetFingerprint := offer.targetFingerprint
  stateDigest := offer.stateDigest
  quiesceUntil := offer.quiesceUntil
  snapshot := ()

variable {left right : Offer S}

/-- `sameOffer` compares the faces. -/
theorem sameOffer_iff : sameOffer left right ↔ left.face = right.face := by
  simp only [sameOffer, Offer.face, and_eq_true, decide_eq_true_eq, Offer.mk.injEq, and_true,
    and_assoc]

/-- The computer and the certificate of an offer are those of the target. -/
def For (key : TargetKey) (offer : Offer S) : Prop :=
  offer.target.coordinatorID = key.id ∧ offer.targetFingerprint = key.fingerprint

variable {key : TargetKey}

theorem For.congr (h : For key left) (hface : left.face = right.face) : For key right :=
  ⟨(congrArg (·.target.coordinatorID) hface).symm.trans h.1,
    (congrArg (·.targetFingerprint) hface).symm.trans h.2⟩

theorem id_of_face (h : left.face = right.face) : left.id = right.id := congrArg (·.id) h

variable [Bundle S]

@[simp]
theorem face_cloneOffer (offer : Offer S) : (cloneOffer offer).face = offer.face := rfl

/-- The texts of an offer are those that a file gives back. -/
def Clean (offer : Offer S) : Prop := offer.reread = cloneOffer offer

theorem Clean.congr (h : Clean left) (hface : left.face = right.face) : Clean right := by
  obtain ⟨id, source, target, fingerprint, digest, until_, snapshot⟩ := left
  obtain ⟨id', source', target', fingerprint', digest', until', snapshot'⟩ := right
  simp only [Offer.face, Offer.mk.injEq, and_true] at hface
  obtain ⟨rfl, rfl, rfl, rfl, rfl, rfl⟩ := hface
  simp only [Clean, Offer.reread, cloneOffer, Offer.mk.injEq, and_true] at h ⊢
  exact h

/-- What is true of every offer of a source. -/
structure Proper (cfg : SourceConfig) (offer : Offer S) : Prop where
  source : offer.source = cfg.term
  generation : offer.target.generation = nextGeneration cfg.term.generation
  clean : Clean offer
  valid : validOffer offer

variable {cfg : SourceConfig} {offer : Offer S}

/-- A valid offer with the face of a proper one is proper. -/
theorem Proper.congr {other : Offer S} (h : Proper cfg offer) (hface : offer.face = other.face)
    (hvalid : validOffer other) : Proper cfg other where
  source := (congrArg Offer.source hface).symm.trans h.source
  generation := (congrArg (·.target.generation) hface).symm.trans h.generation
  clean := h.clean.congr hface
  valid := hvalid

theorem validOffer_clone [LawfulBundle S] (offer : Offer S) :
    validOffer (cloneOffer offer) = validOffer offer := by
  unfold validOffer cloneOffer
  rw [LawfulBundle.digest_clone]

theorem Proper.clone [LawfulBundle S] (h : Proper cfg offer) : Proper cfg (cloneOffer offer) :=
  h.congr rfl (by rw [validOffer_clone]; exact h.valid)

theorem Proper.reread (h : Proper cfg offer) : offer.reread = cloneOffer offer := h.clean

/-- An id reads back as it is. -/
theorem jsonText_of_validID {id : GoString} (h : validID id) : jsonText id = id := by
  simp only [validID, and_eq_true, all_eq_true] at h
  refine (jsonText_eq_self_iff id).mpr (validString_of_ascii fun b hb => ?_)
  have hcharacter := h.2 b hb
  simp only [idCharacter, or_eq_true, and_eq_true, decide_eq_true_eq] at hcharacter
  have hle : b ≤ 0x7A := by
    rcases hcharacter with ((((h | h) | h) | rfl) | rfl) | rfl
    · exact h.2
    · exact UInt8.le_trans h.2 (by decide)
    · exact UInt8.le_trans h.2 (by decide)
    all_goals decide
  exact UInt8.lt_of_le_of_lt hle (by decide)

/-- A prepared offer of a request with clean texts is proper once it is written. -/
theorem proper_offer [LawfulBundle S] {request : Request S} {digest : GoString} {now : Time}
    (hcoordinator : jsonText cfg.term.coordinatorID = cfg.term.coordinatorID)
    (hid : jsonText request.targetID = request.targetID)
    (hfingerprint : jsonText request.targetFingerprint = request.targetFingerprint)
    (hvalid : validOffer (cfg.offer request digest now)) :
    Proper cfg (cfg.offer request digest now) := by
  refine ⟨rfl, rfl, ?_, hvalid⟩
  simp only [validOffer, and_eq_true] at hvalid
  obtain ⟨⟨⟨⟨⟨⟨⟨hvalidID, -⟩, -⟩, -⟩, -⟩, -⟩, hdigest⟩, -⟩ := hvalid
  have htext : jsonText digest = digest := by
    split at hdigest
    · rename_i computed hcomputed
      have heq : digest = computed := of_decide_eq_true hdigest
      rw [heq]
      exact LawfulBundle.digest_text _ _ hcomputed
    · cases hdigest
  simp only [Clean, Offer.reread, cloneOffer, SourceConfig.offer, CoordinatorTerm.reread,
    Offer.mk.injEq, and_true]
  exact ⟨jsonText_of_validID hvalidID, by rw [hcoordinator], by rw [hid], hfingerprint, htext⟩

/-- The term that an offer of the source gives to the target. -/
def SourceConfig.successor (cfg : SourceConfig) (key : TargetKey) : CoordinatorTerm :=
  { coordinatorID := key.id, generation := nextGeneration cfg.term.generation }

/-- A proper offer gives the target the next term. -/
theorem Proper.target_eq (h : Proper cfg offer) (hkey : For key offer) :
    offer.target = cfg.successor key := by
  rw [SourceConfig.successor, ← hkey.1, ← h.generation]

/-- The next term is valid and later, if there is a proper offer of it. -/
theorem Proper.succeeds (h : Proper cfg offer) (hkey : For key offer) :
    Succeeds cfg.term (cfg.successor key) := by
  have htarget := h.target_eq hkey
  have hnonzero : nextGeneration cfg.term.generation ≠ 0 := by
    have hvalid := h.valid
    simp only [validOffer, and_eq_true, decide_eq_true_eq] at hvalid
    rw [← h.generation]
    exact hvalid.1.1.1.1.1.2
  refine ⟨?_, ?_, ?_, ?_⟩
  · simp only [validateTerm, check_eq_ok, refuse_eq_ok, decide_eq_false_iff_not]
    exact ⟨cfg.generation, cfg.named⟩
  · simp only [validateTerm, check_eq_ok, refuse_eq_ok, decide_eq_false_iff_not]
    exact ⟨hnonzero, key.named⟩
  · -- The successor of a generation is smaller only if it overflows, and then it is zero.
    have hbounded := cfg.bounded
    simp only [SourceConfig.successor, nextGeneration] at hnonzero ⊢
    omega
  have hreread := congrArg Offer.target h.reread
  simp only [Offer.reread, cloneOffer] at hreread
  rw [← htarget, hreread]

end Bria.CoordinatorTransfer
