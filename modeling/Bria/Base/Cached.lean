import Mathlib.Logic.Relation
import Bria.Base.Stored

/-!
# Files with a copy in memory

A process keeps in memory what it read from its file or last wrote to it, and it can tell whether the
file is still the one that the copy is of (`fresh`). Memory and file have different types: `encode`
makes the file of a copy, and `decode` reads a file, which may fail and may depend on something
beside the file. What is decoded need not be what was encoded.

`Step` lists what can happen to the copy and the file. A change that is written is a change of a
fresh copy, and so each property of copies has three rules: what decoding and every change give holds
of the copy (`Step.memory`), what decoding and every change keep holds of the copy while it is fresh
and of all that the file decodes to (`Step.holds`), and what relates a copy to what its encoding
decodes to, relates a fresh copy to what the file decodes to (`Step.agrees`).
-/

namespace Bria

/-- A file and its copy in memory. -/
structure Cached (M F : Type) where
  memory : M
  file : F
  /-- The copy is of this file. -/
  fresh : Bool

namespace Cached

variable {M F A ε : Type}

/-- Read the file if the copy is not of it. -/
def reload (decode : A → F → Except ε M) (a : A) (c : Cached M F) : Except ε (Cached M F) :=
  if c.fresh then .ok c
  else match decode a c.file with
    | .ok m => .ok { c with memory := m, fresh := true }
    | .error e => .error e

/-- Write the file. This does not touch the copy, and the copy counts as one of the new file if the
write succeeds. A refused write may have left something beside the file by which the copy counts as
old. -/
def write (w : Write) (beside : Bool) (f : F) (c : Cached M F) : Cached M F :=
  match w with
  | .refused => { c with fresh := c.fresh && !beside }
  | .late => { c with file := f, fresh := false }
  | .done => { c with file := f, fresh := true }

variable (decode : A → F → Except ε M) (encode : M → F) (change grow : M → M → Prop)

/-- What can happen to a file and its copy, if copies are changed by `change`. The file may be
written without the copy only by `grow`. -/
inductive Step : Cached M F → Cached M F → Prop where
  /-- The file is read. -/
  | read {c : Cached M F} {a : A} {m : M} (hread : decode a c.file = .ok m) :
      Step c { c with memory := m, fresh := true }
  /-- A write is refused, and the copy counts as old. -/
  | doubt (c : Cached M F) : Step c { c with fresh := false }
  /-- A write fails when the file is already replaced. -/
  | late {c : Cached M F} {m : M} (hfresh : c.fresh)
      (hwrite : change c.memory m ∨ grow c.memory m) :
      Step c { c with file := encode m, fresh := false }
  /-- A write succeeds, and the copy is what was written. -/
  | saved {c : Cached M F} {m : M} (hfresh : c.fresh) (hchange : change c.memory m) :
      Step c { memory := m, file := encode m, fresh := true }
  /-- A write succeeds, but the copy stays what it was. -/
  | unread {c : Cached M F} {m : M} (hfresh : c.fresh) (hgrow : grow c.memory m) :
      Step c { c with file := encode m }

/-- What the next reader sees: the copy if it is fresh, and else what the file decodes to. -/
def Shows (c : Cached M F) (m : M) : Prop :=
  (c.fresh → m = c.memory) ∧ (c.fresh = false → ∃ a, decode a c.file = .ok m)

/-- A property of a fresh copy and of everything that the file decodes to. -/
def Holds (P : M → Prop) (c : Cached M F) : Prop :=
  (c.fresh → P c.memory) ∧ ∀ a m, decode a c.file = .ok m → P m

/-- A relation of a fresh copy to everything that the file decodes to. -/
def Agrees (R : M → M → Prop) (c : Cached M F) : Prop :=
  c.fresh → ∀ a m, decode a c.file = .ok m → R c.memory m

variable {decode encode change grow} {P : M → Prop} {R : M → M → Prop} {c c' : Cached M F}

/-- The next reader sees what has the property. -/
theorem Holds.shows (h : Holds decode P c) {m : M} (hm : Shows decode c m) : P m := by
  cases hfresh : c.fresh with
  | true => exact hm.1 hfresh ▸ h.1 hfresh
  | false =>
    obtain ⟨a, ha⟩ := hm.2 hfresh
    exact h.2 a m ha

/-- What the next reader sees has a property that the relation passes on, so a fresh copy has it and
so has everything that the file decodes to. -/
theorem Agrees.holds (h : Agrees decode R c)
    (hread : ∀ a a' f m m', decode a f = .ok m → decode a' f = .ok m' → R m m') {m : M}
    (hshows : Shows decode c m) (hm : P m) (hR : ∀ m', R m m' → P m') : Holds decode P c := by
  cases hfresh : c.fresh with
  | true =>
    obtain rfl := hshows.1 hfresh
    exact ⟨fun _ => hm, fun a m' ha => hR m' (h hfresh a m' ha)⟩
  | false =>
    obtain ⟨a, ha⟩ := hshows.2 hfresh
    refine ⟨fun hfresh' => ?_, fun a' m' ha' => hR m' (hread a a' _ m m' ha ha')⟩
    rw [hfresh] at hfresh'
    cases hfresh'

/-- What the next reader sees has every property of fresh copies that decoding gives. -/
theorem Shows.of_memory {m : M} (hshows : Shows decode c m) (hc : P c.memory)
    (hread : ∀ a f m, decode a f = .ok m → P m) : P m := by
  cases hfresh : c.fresh with
  | true => exact hshows.1 hfresh ▸ hc
  | false =>
    obtain ⟨a, ha⟩ := hshows.2 hfresh
    exact hread a _ m ha

/-- A property that everything has. -/
theorem Step.memory (hread : ∀ a f m, decode a f = .ok m → P m)
    (hchange : ∀ m m', change m m' → P m → P m') (h : Step decode encode change grow c c')
    (hc : P c.memory) : P c'.memory := by
  cases h with
  | read ha => exact hread _ _ _ ha
  | doubt => exact hc
  | late _ _ => exact hc
  | saved _ hm => exact hchange _ _ hm hc
  | unread _ _ => exact hc

/-- A property that changes and the way through the file keep. -/
theorem Step.holds (htrip : ∀ m a m', P m → decode a (encode m) = .ok m' → P m')
    (hchange : ∀ m m', change m m' → P m → P m')
    (hgrow : ∀ m m' a m'', grow m m' → P m → decode a (encode m') = .ok m'' → P m'')
    (h : Step decode encode change grow c c') (hc : Holds decode P c) : Holds decode P c' := by
  cases h with
  | read ha => exact ⟨fun _ => hc.2 _ _ ha, hc.2⟩
  | doubt => exact ⟨fun hfresh => (nomatch hfresh), hc.2⟩
  | late hfresh hm =>
    refine ⟨fun hfresh => (nomatch hfresh), fun a m ha => ?_⟩
    rcases hm with hm | hm
    · exact htrip _ a m (hchange _ _ hm (hc.1 hfresh)) ha
    · exact hgrow _ _ a m hm (hc.1 hfresh) ha
  | saved hfresh hm =>
    have hnext := hchange _ _ hm (hc.1 hfresh)
    exact ⟨fun _ => hnext, fun a m ha => htrip _ a m hnext ha⟩
  | unread hfresh hm => exact ⟨hc.1, fun a m ha => hgrow _ _ a m hm (hc.1 hfresh) ha⟩

/-- A relation between what the same file decodes to, and between a copy and what the file made of it
decodes to. -/
theorem Step.agrees (hread : ∀ a a' f m m', decode a f = .ok m → decode a' f = .ok m' → R m m')
    (htrip : ∀ m a m', decode a (encode m) = .ok m' → R m m')
    (hgrow : ∀ m m' a m'', grow m m' → decode a (encode m') = .ok m'' → R m m'')
    (h : Step decode encode change grow c c') : Agrees decode R c' := by
  cases h with
  | read ha => exact fun _ a m hm => hread _ a _ _ m ha hm
  | doubt | late _ _ => exact fun hfresh => nomatch hfresh
  | saved _ _ => exact fun _ a m hm => htrip _ a m hm
  | unread _ hm => exact fun _ a m ha => hgrow _ _ a m hm ha

/-- What each step keeps, any number of steps keeps. -/
theorem keeps_of_steps {Q : Cached M F → Prop}
    (hstep : ∀ c c', Step decode encode change grow c c' → Q c → Q c')
    (h : Relation.ReflTransGen (Step decode encode change grow) c c') (hc : Q c) : Q c' := by
  induction h with
  | refl => exact hc
  | tail _ hlast ih => exact hstep _ _ hlast ih

end Cached

end Bria
