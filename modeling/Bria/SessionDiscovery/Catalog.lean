import Mathlib.Data.Finset.Max
import Mathlib.Data.List.Lex
import Mathlib.Data.List.Sort
import Mathlib.Data.Prod.Lex
import Mathlib.Order.OrderDual
import Bria.Errors

/-!
# Discovered sessions

`sessiondiscovery.Merge` makes one catalog of the records that the providers' sources report. It
scans the observations of each identity with a running winner and drops the identity if one of them
has another binding than the winner so far. `mem_merge` says what is in the catalog without a scan,
and since the catalog is sorted by a key that no two of its records share, nothing else decides it.
-/

namespace Bria.SessionDiscovery

open Go List

/-- `Record`. `UTC` leaves the instants of its times. -/
structure Record where
  (provider providerSessionID computerID workdir historyRef : GoString)
  (createdAt updatedAt : Time)
  deriving DecidableEq

/-! ## Valid records -/

/-- `saneExactText`. In a UTF-8 text the characters below `0x80` are the bytes below it. -/
def saneExactText (value : GoString) (maxBytes : Nat) : Bool :=
  !value.isEmpty && value.length ≤ maxBytes && validString value && trimSpace value == value &&
    value.all fun b => 0x20 ≤ b && b != 0x7F

/-- `isASCIILetter`. -/
def isASCIILetter (b : UInt8) : Bool := 0x61 ≤ b && b ≤ 0x7A || 0x41 ≤ b && b ≤ 0x5A

/-- `portableAbsolute`. -/
def portableAbsolute : GoString → Bool
  | 0x2F :: _ => true
  | 0x5C :: 0x5C :: _ => true
  | letter :: 0x3A :: slash :: _ => isASCIILetter letter && (slash == 0x2F || slash == 0x5C)
  | _ => false

/-- `invalid`. -/
def invalid (text : String) : Err := .message ("invalid discovered session record: " ++ text)

/-- The checks of `validateRecord`, which returns the record with its times in UTC. -/
def validateRecord (record : Record) : Except Err Unit := do
  refuse (record.provider ≠ ofText "codex" && record.provider ≠ ofText "claude")
    (invalid ("unsupported provider " ++ quoted record.provider))
  refuse (!saneExactText record.providerSessionID 1024)
    (invalid "provider session id is missing or malformed")
  refuse (!saneExactText record.computerID 256) (invalid "computer id is missing or malformed")
  refuse (!saneExactText record.workdir 16384 || !portableAbsolute record.workdir)
    (invalid "workdir is not an absolute provider path")
  refuse (!saneExactText record.historyRef 16384)
    (invalid "history reference is missing or malformed")
  refuse record.createdAt.isZero (invalid "created timestamp is required")
  refuse record.updatedAt.isZero (invalid "updated timestamp is required")
  refuse (record.createdAt.after record.updatedAt) (invalid "updated timestamp precedes creation")

/-- The records that are valid. -/
def valid (records : List Record) : List Record :=
  records.filter fun record => (validateRecord record).toBool

/-! ## Merging -/

/-- `identity`, in the order of `less`. -/
abbrev Identity := List Nat ×ₗ List Nat ×ₗ List Nat

/-- `recordIdentity`. Strings are ordered by their bytes. -/
def recordIdentity (record : Record) : Identity :=
  let bytes := List.map UInt8.toNat
  toLex (bytes record.computerID, toLex (bytes record.provider, bytes record.providerSessionID))

/-- The order of the catalog: the latest first, then by identity. -/
def sortKey (record : Record) : Intᵒᵈ ×ₗ Identity :=
  toLex (OrderDual.toDual record.updatedAt.nanos, recordIdentity record)

/-- `sameBinding`. -/
def sameBinding (left right : Record) : Bool :=
  left.provider == right.provider && left.providerSessionID == right.providerSessionID &&
    left.computerID == right.computerID && left.workdir == right.workdir &&
    left.historyRef == right.historyRef && left.createdAt == right.createdAt

/-- One turn of the scan over the observations of an identity: the winner and whether there was a
conflict. -/
def observe (current : Record × Bool) (observation : Record) : Record × Bool :=
  (if observation.updatedAt.after current.1.updatedAt then observation else current.1,
    current.2 || !sameBinding current.1 observation)

/-- The record of an identity, none if its observations conflict. -/
def winner : List Record → Option Record
  | [] => none
  | first :: rest =>
    let (current, ambiguous) := rest.foldl observe (first, false)
    if ambiguous then none else some current

/-- The observations of an identity, as `byIdentity` has them. -/
def observations (records : List Record) (key : Identity) : List Record :=
  (valid records).filter fun record => recordIdentity record = key

/-- `Report`. -/
structure Report where
  records : List Record
  rejections : List (Record × Err)

/-- `Merge`. -/
def merge (records : List Record) : Report :=
  -- Each identity stands where it was seen first.
  let identityOrder := ((valid records).map recordIdentity).reverse.dedup.reverse
  { records :=
      (identityOrder.filterMap fun key => winner (observations records key)).insertionSort
        fun left right => sortKey left ≤ sortKey right
    rejections :=
      (records.filterMap fun record => (errorOf (validateRecord record)).map (record, ·)) ++
        identityOrder.flatMap fun key => match winner (observations records key) with
          | some _ => []
          | none => (observations records key).map (·, .message
              ("ambiguous discovered session record: conflicting metadata for provider identity")) }

/-! ## The scan -/

variable {records records' l : List Record} {r o : Record} {key : Identity}

/-- All of a record but its update time. -/
def binding (record : Record) : Record := { record with updatedAt := .zero }

theorem sameBinding_iff {left right : Record} :
    sameBinding left right ↔ binding left = binding right := by
  simp only [sameBinding, binding, and_eq_true, beq_iff_eq, Record.mk.injEq, and_true, and_assoc]

/-- A record has the binding of another and is not earlier. -/
def Covers (r o : Record) : Prop := binding o = binding r ∧ o.updatedAt.nanos ≤ r.updatedAt.nanos

theorem Covers.refl : Covers r r := ⟨rfl, Int.le_refl _⟩

theorem Covers.trans {q : Record} (h : Covers r o) (h' : Covers o q) : Covers r q :=
  ⟨h'.1.trans h.1, Int.le_trans h'.2 h.2⟩

theorem Covers.antisymm (h : Covers r o) (h' : Covers o r) : o = r := by
  have htime := Int.le_antisymm h.2 h'.2
  have hbinding := h.1
  obtain ⟨_, _, _, _, _, _, ⟨_⟩⟩ := o
  obtain ⟨_, _, _, _, _, _, ⟨_⟩⟩ := r
  simp_all [binding]

/-- A conflict stays. -/
theorem foldl_observe_conflict (current : Record) (rest : List Record) :
    (rest.foldl observe (current, true)).2 := by
  induction rest generalizing current with
  | nil => rfl
  | cons o rest ih => exact ih _

/-- The scan ends without a conflict exactly if one observation covers all, and then with that one. -/
theorem foldl_observe_eq {first : Record} {rest : List Record} :
    rest.foldl observe (first, false) = (r, false) ↔
      r ∈ first :: rest ∧ ∀ o ∈ first :: rest, Covers r o := by
  induction rest generalizing first with
  | nil =>
    simp only [foldl_nil, Prod.mk.injEq, and_true, mem_singleton, forall_eq]
    exact ⟨fun h => ⟨h.symm, h ▸ .refl⟩, fun h => h.1.symm⟩
  | cons o rest ih =>
    rw [foldl_cons]
    by_cases hsame : binding o = binding first
    · -- The next winner is the later of the two.
      obtain ⟨next, hobserve, hnext, hfirst, ho⟩ : ∃ next,
          observe (first, false) o = (next, false) ∧ (next = first ∨ next = o) ∧
          Covers next first ∧ Covers next o := by
        refine ⟨_, by rw [observe, sameBinding_iff.mpr hsame.symm]; rfl, ?_⟩
        simp only [Time.after, decide_eq_true_eq]
        split
        · exact ⟨.inr rfl, ⟨hsame.symm, by omega⟩, .refl⟩
        · exact ⟨.inl rfl, .refl, hsame, by omega⟩
      rw [hobserve, ih]
      simp only [mem_cons, forall_eq_or_imp]
      constructor
      · rintro ⟨hr, hwinner, hrest⟩
        refine ⟨?_, hwinner.trans hfirst, hwinner.trans ho, hrest⟩
        rcases hr with rfl | hr
        · exact hnext.imp_right .inl
        · exact .inr (.inr hr)
      rintro ⟨hr, hleft, hright, hrest⟩
      have hwinner : Covers r next := by
        rcases hnext with rfl | rfl <;> assumption
      refine ⟨?_, hwinner, hrest⟩
      rcases hr with rfl | rfl | hr
      · exact .inl (hfirst.antisymm hwinner)
      · exact .inl (ho.antisymm hwinner)
      · exact .inr hr
    · have hobserve : (observe (first, false) o).2 := by
        simpa [observe] using mt sameBinding_iff.mp (Ne.symm hsame)
      have hconflict : (rest.foldl observe (observe (first, false) o)).2 := by
        rw [← Prod.mk.eta (p := observe (first, false) o), hobserve]
        exact foldl_observe_conflict _ rest
      refine iff_of_false (fun h => by rw [h] at hconflict; cases hconflict) fun h => hsame ?_
      exact (h.2 o (by simp)).1.trans (h.2 first mem_cons_self).1.symm

theorem winner_eq_some_iff : winner l = some r ↔ r ∈ l ∧ ∀ o ∈ l, Covers r o := by
  cases l with
  | nil => simp [winner]
  | cons first rest =>
    rw [← foldl_observe_eq, winner]
    rcases rest.foldl observe (first, false) with ⟨current, ambiguous⟩
    cases ambiguous <;> simp

/-! ## The catalog -/

theorem mem_observations :
    o ∈ observations records key ↔ o ∈ valid records ∧ recordIdentity o = key := by
  simp [observations]

/-- In the catalog are the valid records that cover all others of their identity. -/
theorem mem_merge : r ∈ (merge records).records ↔ r ∈ valid records ∧
    ∀ o ∈ valid records, recordIdentity o = recordIdentity r → Covers r o := by
  simp only [merge, mem_insertionSort, mem_filterMap, mem_reverse, mem_dedup,
    winner_eq_some_iff, mem_observations, mem_map]
  constructor
  · rintro ⟨-, -, ⟨hr, rfl⟩, h⟩
    exact ⟨hr, fun o ho hsame => h o ⟨ho, hsame⟩⟩
  rintro ⟨hr, h⟩
  exact ⟨_, ⟨r, hr, rfl⟩, ⟨hr, rfl⟩, fun o ho => h o ho.1 ho.2⟩

/-- No two records of the catalog have one identity. -/
theorem eq_of_identity (hr : r ∈ (merge records).records) (ho : o ∈ (merge records).records)
    (h : recordIdentity o = recordIdentity r) : o = r := by
  obtain ⟨hvalid, hcovers⟩ := mem_merge.mp hr
  obtain ⟨hvalid', hcovers'⟩ := mem_merge.mp ho
  exact (hcovers o hvalid' h).antisymm (hcovers' r hvalid h.symm)

theorem nodup_merge (records : List Record) : (merge records).records.Nodup := by
  refine (perm_insertionSort _ _).nodup_iff.mpr (List.Nodup.filterMap ?_ ?_)
  · intro key key' r hr hr'
    have hkey := (mem_observations.mp (winner_eq_some_iff.mp hr).1).2
    exact hkey.symm.trans (mem_observations.mp (winner_eq_some_iff.mp hr').1).2
  · exact nodup_reverse.mpr (nodup_dedup _)

/-- Catalogs of the same records are the same. -/
theorem merge_congr (h : ∀ r, r ∈ (merge records).records ↔ r ∈ (merge records').records) :
    (merge records).records = (merge records').records := by
  have hsorted : ∀ records, (merge records).records.Pairwise fun left right =>
      sortKey left ≤ sortKey right := fun _ => pairwise_insertionSort _ _
  refine List.Perm.eq_of_pairwise ?_ (hsorted records) (hsorted records')
    ((perm_ext_iff_of_nodup (nodup_merge _) (nodup_merge _)).mpr h)
  intro left right hleft hright hle hge
  have hkey := toLex.injective (le_antisymm hle hge)
  exact eq_of_identity ((h right).mpr hright) hleft (Prod.mk.inj hkey).2

/-- The catalog of any records: it does not depend on their order, has each identity once, has
exactly the identities that have a valid record and whose valid records agree, each with the latest
of them, and is the catalog of itself. -/
theorem merge_canonical (records : List Record) :
    (∀ records', records.Perm records' → (merge records').records = (merge records).records) ∧
    ((merge records).records.map recordIdentity).Nodup ∧
    (∀ key, (∃ r ∈ (merge records).records, recordIdentity r = key) ↔
      (∃ r ∈ valid records, recordIdentity r = key) ∧
      ∀ a ∈ valid records, ∀ b ∈ valid records, recordIdentity a = key → recordIdentity b = key →
        sameBinding a b) ∧
    (∀ r ∈ (merge records).records, r ∈ valid records ∧ ∀ o ∈ valid records,
      recordIdentity o = recordIdentity r → o.updatedAt.nanos ≤ r.updatedAt.nanos) ∧
    (merge (merge records).records).records = (merge records).records := by
  refine ⟨fun records' hperm => ?_, ?_, fun key => ⟨?_, ?_⟩, fun r hr => ?_, ?_⟩
  · have hvalid : ∀ r, r ∈ valid records' ↔ r ∈ valid records :=
      fun r => (hperm.filter _).symm.mem_iff
    refine merge_congr fun r => ?_
    simp only [mem_merge, hvalid]
  · exact (nodup_merge records).map_on fun o ho r hr h => eq_of_identity hr ho h
  · rintro ⟨r, hr, rfl⟩
    obtain ⟨hvalid, h⟩ := mem_merge.mp hr
    refine ⟨⟨r, hvalid, rfl⟩, fun a ha b hb hka hkb => sameBinding_iff.mpr ?_⟩
    exact (h a ha hka).1.trans (h b hb hkb).1.symm
  · rintro ⟨⟨r, hr, rfl⟩, hagree⟩
    -- The latest observation is in the catalog.
    obtain ⟨last, hlast, hle⟩ := (observations records (recordIdentity r)).toFinset.exists_max_image
      (·.updatedAt.nanos) ⟨r, mem_toFinset.mpr (mem_observations.mpr ⟨hr, rfl⟩)⟩
    simp only [mem_toFinset, mem_observations] at hlast hle
    obtain ⟨hlast, hkey⟩ := hlast
    refine ⟨last, mem_merge.mpr ⟨hlast, fun o ho hsame => ?_⟩, hkey⟩
    rw [hkey] at hsame
    exact ⟨sameBinding_iff.mp (hagree o ho last hlast hsame hkey), hle o ⟨ho, hsame⟩⟩
  · obtain ⟨hvalid, h⟩ := mem_merge.mp hr
    exact ⟨hvalid, fun o ho hsame => (h o ho hsame).2⟩
  have hvalid : ∀ o, o ∈ valid (merge records).records ↔ o ∈ (merge records).records := by
    refine fun o => ⟨mem_of_mem_filter, fun ho => mem_filter.mpr ⟨ho, ?_⟩⟩
    exact (mem_filter.mp (mem_merge.mp ho).1).2
  refine merge_congr fun r => mem_merge.trans ⟨fun h => (hvalid r).mp h.1, fun hr => ?_⟩
  refine ⟨(hvalid r).mpr hr, fun o ho hsame => ?_⟩
  obtain rfl := eq_of_identity hr ((hvalid o).mp ho) hsame
  exact .refl

end Bria.SessionDiscovery
