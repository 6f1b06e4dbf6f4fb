import Mathlib.Logic.Relation
import Bria.Base.Program

/-!
# Programs that run side by side

A process runs any number of programs at once. At each step one of them asks its next request, and
the surroundings answer it; programs may start at any time, and when the process starts anew all of
them are gone. `Pool.Step` is one such step, and a run of it is an interleaving.

A `Discipline` says what the programs of a pool may expect of each other: an invariant of the state,
and a relation that every request keeps to. It also has an account. One request can be answered in a
way that earns something, which happens once; others have a price. A program is `Sound` if it pays
only with what it has itself earned, whatever the other programs do between its requests. If all
programs are sound then at most one price is ever paid (`Holds.paid_le_one`), and what each of them
ensures when it returns still holds in the end.
-/

namespace Bria.Program

variable {ρ : Type} {A : ρ → Type} {α β κ σ : Type} {k : κ} {front back : List (κ × Program ρ A α)}

/-! ## Pools -/

/-- What a program of a pool does: it asks a request, or it returns. -/
inductive Event (κ ρ : Type) (A : ρ → Type) (α : Type) where
  | asked (call : κ) (r : ρ) (answer : A r)
  | returned (call : κ) (result : α)

/-- The surroundings, the programs that run with their calls, and all that they have done, the latest
first. -/
structure Pool (κ ρ : Type) (A : ρ → Type) (α σ : Type) where
  state : σ
  threads : List (κ × Program ρ A α) := []
  trace : List (Event κ ρ A α) := []

/-- One step of a pool in which only some calls are made. -/
inductive Pool.Step (E : Surroundings ρ A σ) (start : κ → Program ρ A α) (calls : κ → Prop)
    (restarts : σ → σ → Prop) : Pool κ ρ A α σ → Pool κ ρ A α σ → Prop where
  /-- A call starts its program. -/
  | call (pool : Pool κ ρ A α σ) (k : κ) (hk : calls k) :
      Step E start calls restarts pool { pool with threads := (k, start k) :: pool.threads }
  /-- A program asks its next request. -/
  | ask {s : σ} {front back : List (κ × Program ρ A α)} {k : κ} {r : ρ}
      {next : A r → Program ρ A α} {trace : List (Event κ ρ A α)} (c : E.Choice r) :
      Step E start calls restarts ⟨s, front ++ (k, .ask r next) :: back, trace⟩
        ⟨(E.perform r s c).2, front ++ (k, next (E.perform r s c).1) :: back,
          .asked k r (E.perform r s c).1 :: trace⟩
  /-- A program returns. -/
  | ret {s : σ} {front back : List (κ × Program ρ A α)} {k : κ} {a : α}
      {trace : List (Event κ ρ A α)} :
      Step E start calls restarts ⟨s, front ++ (k, .ret a) :: back, trace⟩
        ⟨s, front ++ back, .returned k a :: trace⟩
  /-- The process starts anew. -/
  | restart {s s' : σ} {threads : List (κ × Program ρ A α)} {trace : List (Event κ ρ A α)}
      (h : restarts s s') : Step E start calls restarts ⟨s, threads, trace⟩ ⟨s', [], trace⟩

/-- What a program does when every request is answered by one rule, after what was done before. -/
def playTrace (E : Surroundings ρ A σ) (rule : (r : ρ) → E.Choice r) (k : κ) :
    Program ρ A α → σ → List (Event κ ρ A α) → List (Event κ ρ A α)
  | .ret a, _, trace => .returned k a :: trace
  | .ask r next, s, trace =>
    (next (E.perform r s (rule r)).1).playTrace E rule k (E.perform r s (rule r)).2
      (.asked k r (E.perform r s (rule r)).1 :: trace)

variable {E : Surroundings ρ A σ} {start : κ → Program ρ A α} {calls : κ → Prop}
  {restarts : σ → σ → Prop}

/-- Playing a program that runs alone is a run of the pool. -/
theorem Pool.steps_play (rule : (r : ρ) → E.Choice r) (k : κ) (p : Program ρ A α) (s : σ)
    (trace : List (Event κ ρ A α)) :
    Relation.ReflTransGen (Pool.Step E start calls restarts) ⟨s, [(k, p)], trace⟩
      ⟨(p.play E rule s).2, [], p.playTrace E rule k s trace⟩ := by
  induction p generalizing s trace with
  | ret a => exact .single (@Pool.Step.ret _ _ _ _ _ E start calls restarts s [] [] k a trace)
  | ask r next ih =>
    exact .head (@Pool.Step.ask _ _ _ _ _ E start calls restarts s [] [] k r next trace (rule r))
      (ih _ _ _)

/-- A call that is made and played in an idle pool. -/
theorem Pool.steps_call (rule : (r : ρ) → E.Choice r) (hk : calls k) (s : σ)
    (trace : List (Event κ ρ A α)) :
    Relation.ReflTransGen (Pool.Step E start calls restarts) ⟨s, [], trace⟩
      ⟨((start k).play E rule s).2, [], (start k).playTrace E rule k s trace⟩ :=
  .head (.call ⟨s, [], trace⟩ k hk) (Pool.steps_play rule k (start k) s trace)

/-! ## Disciplines -/

/-- What the programs of a pool keep to. -/
structure Discipline (E : Surroundings ρ A σ) where
  /-- What holds of every state. -/
  inv : σ → Prop
  /-- What the programs may do to the state. -/
  rely : σ → σ → Prop
  /-- The requests that they may ask. -/
  asks : ρ → Prop
  /-- Whether an answer earns something. -/
  earns : (r : ρ) → A r → Bool
  /-- What a request costs. -/
  costs : ρ → Nat
  /-- What has been earned once is earned for good. -/
  done : σ → Prop
  refl : ∀ s, rely s s
  trans : ∀ {s s₁ s₂}, rely s s₁ → rely s₁ s₂ → rely s s₂
  keeps : ∀ r s c, asks r → inv s → inv (E.perform r s c).2 ∧ rely s (E.perform r s c).2
  stays : ∀ {s s'}, rely s s' → done s → done s'
  once : ∀ r s c, asks r → inv s → earns r (E.perform r s c).1 → ¬done s ∧ done (E.perform r s c).2

namespace Discipline

variable (D : Discipline E)

/-- What an answer adds to the account. -/
def income (r : ρ) (a : A r) : Nat := if D.earns r a then 1 else 0

/-- A program with an account pays for every request, and ends in `Q`, whatever the others do between
its requests. -/
def Sound (Q : α → Nat → σ → Prop) : Program ρ A α → Nat → σ → Prop
  | .ret a, n, s => ∀ s', D.rely s s' → D.inv s' → Q a n s'
  | .ask r next, n, s => D.asks r ∧ D.costs r ≤ n ∧ ∀ s', D.rely s s' → D.inv s' → ∀ c,
      Sound Q (next (E.perform r s' c).1) (n - D.costs r + D.income r (E.perform r s' c).1)
        (E.perform r s' c).2

variable {D} {Q : α → Nat → σ → Prop} {R : β → Nat → σ → Prop} {n : Nat} {s s' : σ}

variable {p : Program ρ A α}

/-- A sound program stays sound whatever the others do. -/
theorem Sound.of_rely (h : D.Sound Q p n s) (hrely : D.rely s s') : D.Sound Q p n s' := by
  cases p with
  | ret a => exact fun s1 h1 => h s1 (D.trans hrely h1)
  | ask r next =>
    obtain ⟨hasks, hcosts, hnext⟩ := h
    exact ⟨hasks, hcosts, fun s1 h1 => hnext s1 (D.trans hrely h1)⟩

theorem Sound.request {r : ρ} {f : A r → Program ρ A β} (hasks : D.asks r) (hcosts : D.costs r ≤ n)
    (hf : ∀ s' c, D.rely s s' → D.inv s' → D.inv (E.perform r s' c).2 →
      D.Sound R (f (E.perform r s' c).1) (n - D.costs r + D.income r (E.perform r s' c).1)
        (E.perform r s' c).2) : D.Sound R (Program.request r >>= f) n s :=
  ⟨hasks, hcosts, fun s' hrely hinv c => hf s' c hrely hinv (D.keeps r s' c hasks hinv).1⟩

theorem Sound.bind {f : α → Program ρ A β} (hinv : D.inv s) (hp : D.Sound Q p n s)
    (hf : ∀ a n s', D.inv s' → Q a n s' → D.Sound R (f a) n s') : D.Sound R (p >>= f) n s := by
  induction p generalizing n s with
  | ret a => exact hf a n s hinv (hp s (D.refl s) hinv)
  | ask r next ih =>
    obtain ⟨hasks, hcosts, hnext⟩ := hp
    refine ⟨hasks, hcosts, fun s' hrely hinv' c => ?_⟩
    exact ih _ (D.keeps r s' c hasks hinv').1 (hnext s' hrely hinv' c)

/-! ## The account of a pool -/

variable (D) (price : κ → α → Nat) (P : κ → α → σ → Prop)

/-- What the programs have paid. -/
def paid : List (Event κ ρ A α) → Nat
  | [] => 0
  | .asked _ r _ :: trace => D.costs r + paid trace
  | .returned k a :: trace => price k a + paid trace

/-- What they have earned. -/
def earned : List (Event κ ρ A α) → Nat
  | [] => 0
  | .asked _ r a :: trace => D.income r a + earned trace
  | .returned _ _ :: trace => earned trace

/-- What a program ensures when it returns: it can pay for its result, and the state has a
property. -/
def Ends (k : κ) (a : α) (n : Nat) (s : σ) : Prop := price k a ≤ n ∧ P k a s

/-- The programs are sound, with so much in their accounts together. -/
inductive Funded (s : σ) : List (κ × Program ρ A α) → Nat → Prop where
  | nil : Funded s [] 0
  | cons {k : κ} {p : Program ρ A α} {threads : List (κ × Program ρ A α)} {n m : Nat}
      (sound : D.Sound (Ends price P k) p n s) (rest : Funded s threads m) :
      Funded s ((k, p) :: threads) (n + m)

variable {D price P}

/-- The others stay sound when one of them has asked a request. -/
theorem Funded.of_rely {threads : List (κ × Program ρ A α)} (h : Funded D price P s threads n)
    (hrely : D.rely s s') : Funded D price P s' threads n := by
  induction h with
  | nil => exact .nil
  | cons sound _ ih => exact .cons (sound.of_rely hrely) ih

theorem Funded.middle (h : Funded D price P s (front ++ (k, p) :: back) n) :
    ∃ n1 n2, n = n1 + n2 ∧ D.Sound (Ends price P k) p n1 s ∧
      Funded D price P s (front ++ back) n2 := by
  induction front generalizing n with
  | nil =>
    cases h with
    | cons sound rest => exact ⟨_, _, rfl, sound, rest⟩
  | cons thread front ih =>
    cases h with
    | @cons _ _ _ n0 _ sound rest =>
      obtain ⟨n1, n2, rfl, hp, hothers⟩ := ih rest
      exact ⟨n1, n0 + n2, by omega, hp, .cons sound hothers⟩

theorem Funded.insert {m : Nat} (hp : D.Sound (Ends price P k) p n s)
    (hothers : Funded D price P s (front ++ back) m) :
    Funded D price P s (front ++ (k, p) :: back) (n + m) := by
  induction front generalizing m with
  | nil => exact .cons hp hothers
  | cons thread front ih =>
    cases hothers with
    | @cons _ _ _ n1 m1 sound rest =>
      have hsum : n + (n1 + m1) = n1 + (n + m1) := by omega
      rw [hsum]
      exact .cons sound (ih rest)

variable (D price P)

/-- The invariant of a pool. -/
structure Holds (pool : Pool κ ρ A α σ) : Prop where
  inv : D.inv pool.state
  funded : ∃ n, Funded D price P pool.state pool.threads n ∧
    D.paid price pool.trace + n ≤ D.earned pool.trace
  once : D.earned pool.trace ≤ 1 ∧ (D.earned pool.trace = 1 → D.done pool.state)
  ensured : ∀ k a, .returned k a ∈ pool.trace → P k a pool.state

variable {D price P} {pool pool' : Pool κ ρ A α σ}

section Run

variable (hstart : ∀ k s, calls k → D.inv s → D.Sound (Ends price P k) (start k) 0 s)
  (hstable : ∀ k a s s', D.rely s s' → D.inv s' → P k a s → P k a s')
  (hrestart : ∀ s s', restarts s s' → D.inv s →
    D.inv s' ∧ (D.done s → D.done s') ∧ ∀ k a, P k a s → P k a s')

include hstart hstable hrestart

theorem Holds.step (h : D.Holds price P pool)
    (hstep : Pool.Step E start calls restarts pool pool') : D.Holds price P pool' := by
  obtain ⟨hinv, ⟨n, hfunded, hpaid⟩, ⟨hone, hdone⟩, hensured⟩ := h
  cases hstep with
  | call _ k hk =>
    exact ⟨hinv, ⟨n, (Nat.zero_add n) ▸ .cons (hstart k _ hk hinv) hfunded, hpaid⟩, ⟨hone, hdone⟩,
      hensured⟩
  | @ask s front back k r next trace c =>
    obtain ⟨n1, n2, rfl, ⟨hasks, hcosts, hnext⟩, hothers⟩ := hfunded.middle
    obtain ⟨hinv', hrely⟩ := D.keeps r s c hasks hinv
    refine ⟨hinv', ⟨_, .insert (hnext s (D.refl s) hinv c) (hothers.of_rely hrely), ?_⟩, ?_, ?_⟩
    · simp only [paid, earned] at hpaid ⊢
      omega
    · -- An answer that earns is the first one, since what is earned is earned for good.
      simp only [earned, income]
      cases hearns : D.earns r (E.perform r s c).1 with
      | false =>
        simp only [Bool.false_eq_true, if_false, Nat.zero_add]
        exact ⟨hone, fun h => D.stays hrely (hdone h)⟩
      | true =>
        obtain ⟨hfirst, hlast⟩ := D.once r s c hasks hinv hearns
        have hzero : D.earned trace ≠ 1 := fun h => hfirst (hdone h)
        have hone : D.earned trace ≤ 1 := hone
        simp only [if_true]
        exact ⟨by omega, fun _ => hlast⟩
    · intro k' a' hmem
      rcases List.mem_cons.mp hmem with heq | hmem
      · cases heq
      · exact hstable k' a' s _ hrely hinv' (hensured k' a' hmem)
  | @ret s front back k a trace =>
    obtain ⟨n1, n2, rfl, hend, hothers⟩ := hfunded.middle
    obtain ⟨hprice, hP⟩ := hend s (D.refl s) hinv
    refine ⟨hinv, ⟨n2, hothers, ?_⟩, ⟨hone, hdone⟩, fun k' a' hmem => ?_⟩
    · simp only [paid, earned] at hpaid ⊢
      omega
    rcases List.mem_cons.mp hmem with heq | hmem
    · cases heq
      exact hP
    · exact hensured k' a' hmem
  | restart hs =>
    obtain ⟨hinv', hdone', hensured'⟩ := hrestart _ _ hs hinv
    refine ⟨hinv', ⟨0, .nil, ?_⟩, ⟨hone, fun h => hdone' (hdone h)⟩, fun k a hmem => ?_⟩
    · simp only at hpaid ⊢
      omega
    · exact hensured' k a (hensured k a hmem)

/-- In every run of a pool whose programs are sound, at most one price is paid, and what a program
ensures when it returns holds from then on. -/
theorem Holds.run (h : D.Holds price P pool)
    (hrun : Relation.ReflTransGen (Pool.Step E start calls restarts) pool pool') :
    D.Holds price P pool' := by
  induction hrun with
  | refl => exact h
  | tail _ hlast ih => exact ih.step hstart hstable hrestart hlast

end Run

theorem Holds.initial (hinv : D.inv s) : D.Holds price P (⟨s, [], []⟩ : Pool κ ρ A α σ) :=
  ⟨hinv, ⟨0, .nil, Nat.le_refl 0⟩, ⟨Nat.zero_le 1, fun h => by cases h⟩, fun _ _ h => by cases h⟩

/-- At most one price is paid. -/
theorem Holds.paid_le_one (h : D.Holds price P pool) : D.paid price pool.trace ≤ 1 := by
  obtain ⟨-, ⟨n, -, hpaid⟩, ⟨hone, -⟩, -⟩ := h
  omega

end Discipline

end Bria.Program
