/-!
# Partial machines

A machine is a partial step function: `step i s` is the state that the input `i` leads to from `s`,
and none if `i` is not enabled there. A run is a list of inputs. What every step keeps, every run
keeps (`exec_keeps`); what every step keeps or exchanges for something else holds until that
happens (`exec_unless`). Both rules look only at steps that meet a condition on the input and the
state, and `Along` says that all steps of a run do.
-/

namespace Bria.Machine

variable {σ ι : Type} (step : ι → σ → Option σ) {front back : List ι} {Q : σ → Prop}

/-- The state after a run, none if a step of it is not enabled. -/
def exec : List ι → σ → Option σ
  | [], s => some s
  | i :: rest, s => (step i s).bind (exec rest)

/-- Every step of the run meets the condition `ok` on its input and the state it starts from. -/
def Along (ok : ι → σ → Prop) : List ι → σ → Prop
  | [], _ => True
  | i :: rest, s =>
    ok i s ∧ match step i s with
      | some s' => Along ok rest s'
      | none => True

variable {step}

variable {i : ι} {rest : List ι} {s s' : σ}

theorem exec_cons :
    exec step (i :: rest) s = some s' ↔ ∃ s1, step i s = some s1 ∧ exec step rest s1 = some s' := by
  simp only [exec, Option.bind_eq_some_iff]

variable {ok : ι → σ → Prop}

/-- The condition along a run of one more step at the front. -/
theorem along_cons (h : Along step ok (i :: rest) s) (hs : step i s = some s') :
    ok i s ∧ Along step ok rest s' := by
  simpa only [Along, hs] using h

/-- A step that meets the condition goes before a run along which it holds. -/
theorem along_intro (hi : ok i s)
    (hrest : ∀ s', step i s = some s' → Along step ok rest s') : Along step ok (i :: rest) s := by
  refine ⟨hi, ?_⟩
  split
  · exact hrest _ ‹_›
  · trivial

theorem along_append (h : Along step ok (front ++ back) s) (hfront : exec step front s = some s') :
    Along step ok front s ∧ Along step ok back s' := by
  induction front generalizing s with
  | nil =>
    obtain rfl := Option.some.inj hfront
    exact ⟨trivial, h⟩
  | cons i front ih =>
    obtain ⟨s1, hfirst, hrest⟩ := exec_cons.mp hfront
    obtain ⟨hi, h⟩ := along_cons h hfirst
    obtain ⟨hf, hb⟩ := ih h hrest
    refine ⟨along_intro hi fun s2 hs2 => ?_, hb⟩
    obtain rfl := Option.some.inj (hfirst.symm.trans hs2)
    exact hf

variable {run : List ι}

/-- A condition on the inputs alone. -/
theorem along_of_forall {p : ι → Prop} (h : ∀ i ∈ run, p i) (s : σ) :
    Along step (fun i _ => p i) run s := by
  induction run generalizing s with
  | nil => trivial
  | cons i rest ih =>
    exact along_intro (h i List.mem_cons_self)
      fun s' _ => ih (fun j hj => h j (List.mem_cons_of_mem i hj)) s'

theorem exec_append :
    exec step (front ++ back) s = some s' ↔
      ∃ s1, exec step front s = some s1 ∧ exec step back s1 = some s' := by
  induction front generalizing s with
  | nil => simp [exec]
  | cons i front ih => simp only [List.cons_append, exec_cons, ih]; grind

variable {P : σ → Prop}

/-- What the steps that meet the condition keep holds after a run of such steps. -/
theorem exec_keeps (hstep : ∀ i s s', ok i s → step i s = some s' → P s → P s')
    (hok : Along step ok run s) (hrun : exec step run s = some s') (hs : P s) : P s' := by
  induction run generalizing s with
  | nil =>
    obtain rfl := Option.some.inj hrun
    exact hs
  | cons i rest ih =>
    obtain ⟨s1, hfirst, hrest⟩ := exec_cons.mp hrun
    obtain ⟨hi, hok⟩ := along_cons hok hfirst
    exact ih hok hrest (hstep i s s1 hi hfirst hs)

/-- What every step keeps holds after every run. -/
theorem exec_invariant (hstep : ∀ i s s', step i s = some s' → P s → P s')
    (hrun : exec step run s = some s') (hs : P s) : P s' :=
  exec_keeps (fun i s s' _ => hstep i s s')
    (along_of_forall (p := fun _ => True) (fun _ _ => trivial) s) hrun hs

/-- If a step from a state with `P` reaches `Q` exactly if it meets the condition, and `P` with it,
then a run goes through `Q` exactly if all its steps meet the condition. -/
theorem forall_prefixes_iff_along
    (hstep : ∀ i s s', P s → step i s = some s' → (Q s' ↔ ok i s) ∧ (Q s' → P s'))
    (hPQ : ∀ s, P s → Q s) (hs : P s) (hrun : exec step run s = some s') :
    (∀ front back s1, run = front ++ back → exec step front s = some s1 → Q s1) ↔
      Along step ok run s := by
  induction run generalizing s with
  | nil =>
    refine iff_of_true (fun front back s1 hnil hfront => ?_) trivial
    obtain ⟨rfl, -⟩ := List.append_eq_nil_iff.mp hnil.symm
    obtain rfl := Option.some.inj hfront
    exact hPQ s hs
  | cons i rest ih =>
    obtain ⟨s2, hfirst, hrest⟩ := exec_cons.mp hrun
    obtain ⟨hiff, hkeeps⟩ := hstep i s s2 hs hfirst
    constructor
    · intro h
      have hQ : Q s2 := h [i] rest s2 rfl (exec_cons.mpr ⟨s2, hfirst, rfl⟩)
      refine along_intro (hiff.mp hQ) fun s3 hs3 => ?_
      obtain rfl := Option.some.inj (hfirst.symm.trans hs3)
      refine (ih (hkeeps hQ) hrest).mp fun front back s1 hsplit hfront => ?_
      exact h (i :: front) back s1 (by rw [hsplit, List.cons_append])
        (exec_cons.mpr ⟨s2, hfirst, hfront⟩)
    intro h front back s1 hsplit hfront
    obtain ⟨hi, halong⟩ := along_cons h hfirst
    cases front with
    | nil =>
      obtain rfl := Option.some.inj hfront
      exact hPQ s hs
    | cons j front =>
      obtain ⟨rfl, rfl⟩ := List.cons.inj hsplit
      obtain ⟨s4, hs4, hfront⟩ := exec_cons.mp hfront
      obtain rfl := Option.some.inj (hfirst.symm.trans hs4)
      exact (ih (hkeeps (hiff.mpr hi)) hrest).mpr halong front back s1 rfl hfront

/-- If every step that meets the condition keeps `P` or reaches `Q`, then a run of such steps keeps
`P` or passes through `Q`. -/
theorem exec_unless (hstep : ∀ i s s', ok i s → step i s = some s' → P s → P s' ∨ Q s')
    (hok : Along step ok run s) (hrun : exec step run s = some s') (hs : P s ∨ Q s) :
    P s' ∨ ∃ front back s1, run = front ++ back ∧ exec step front s = some s1 ∧ Q s1 := by
  induction run generalizing s with
  | nil =>
    obtain rfl := Option.some.inj hrun
    exact hs.imp_right fun hq => ⟨[], [], s, rfl, rfl, hq⟩
  | cons i rest ih =>
    rcases hs with hp | hq
    · obtain ⟨s1, hfirst, hrest⟩ := exec_cons.mp hrun
      obtain ⟨hi, hok⟩ := along_cons hok hfirst
      refine (ih hok hrest (hstep i s s1 hi hfirst hp)).imp_right ?_
      rintro ⟨front, back, s2, rfl, hfront, hq⟩
      exact ⟨i :: front, back, s2, rfl, exec_cons.mpr ⟨s1, hfirst, hfront⟩, hq⟩
    · exact .inr ⟨[], i :: rest, s, rfl, rfl, hq⟩

end Bria.Machine
