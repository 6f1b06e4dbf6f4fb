/-!
# Programs and their surroundings

A program computes, and from time to time asks a request of its surroundings and goes on with the
answer. It is a tree: a leaf returns, a node asks and has one subtree for each answer. The
surroundings have a state, and a request leaves them a choice; a run of a program is one path
through the tree. What the surroundings may do is everything that some choice makes them do, so a
statement about every run is one about every behaviour of the surroundings.
-/

namespace Bria

/-- A program over the requests `ρ`, whose answers have the types `A`. -/
inductive Program (ρ : Type) (A : ρ → Type) (α : Type) : Type where
  /-- The program returns. -/
  | ret (a : α)
  /-- The program asks a request and goes on with the answer. -/
  | ask (r : ρ) (next : A r → Program ρ A α)

namespace Program

variable {ρ : Type} {A : ρ → Type} {α β σ : Type} {a : α} {r : ρ} {b : β} {P' : α → σ → Prop}
  {S : σ → σ → Prop}

/-- One program after another. -/
def andThen : Program ρ A α → (α → Program ρ A β) → Program ρ A β
  | .ret a, f => f a
  | .ask r next, f => .ask r fun x => (next x).andThen f

instance : Monad (Program ρ A) where
  pure := .ret
  bind := andThen

/-- The program that asks one request. -/
def request (r : ρ) : Program ρ A (A r) := .ask r .ret

/-- The surroundings of a program: what a request leaves open, and what it does to their state
under each choice. -/
structure Surroundings (ρ : Type) (A : ρ → Type) (σ : Type) where
  /-- What a request leaves open. -/
  Choice : ρ → Type
  /-- The answer and the state after it. -/
  perform : (r : ρ) → σ → Choice r → A r × σ

/-- A run: the program starts in a state, returns a value and leaves a state. -/
inductive Runs (E : Surroundings ρ A σ) : Program ρ A α → σ → α → σ → Prop where
  /-- The program returns. -/
  | ret {a : α} {s : σ} : Runs E (.ret a) s a s
  /-- The surroundings answer a request. -/
  | ask {r : ρ} {next : A r → Program ρ A α} {s s' : σ} {a : α} (c : E.Choice r)
      (rest : Runs E (next (E.perform r s c).1) (E.perform r s c).2 a s') :
      Runs E (.ask r next) s a s'

variable {E : Surroundings ρ A σ} {s s' : σ}

@[simp]
theorem runs_pure {b : α} : Runs E (pure a : Program ρ A α) s b s' ↔ b = a ∧ s' = s := by
  constructor
  · intro h
    cases h
    exact ⟨rfl, rfl⟩
  rintro ⟨rfl, rfl⟩
  exact .ret

/-- The run of a program that returns a pair. -/
theorem runs_pure_pair {b b' : α} {c c' : β}
    (h : Runs E (pure (b, c) : Program ρ A (α × β)) s (b', c') s') : b' = b ∧ c' = c ∧ s' = s := by
  obtain ⟨heq, hs⟩ := runs_pure.mp h
  obtain ⟨hb, hc⟩ := Prod.mk.inj heq
  exact ⟨hb, hc, hs⟩

/-- The run of one request. -/
@[simp]
theorem runs_request {x : A r} : Runs E (request r) s x s' ↔ ∃ c, E.perform r s c = (x, s') := by
  constructor
  · intro h
    cases h with
    | ask c rest =>
      cases rest
      exact ⟨c, rfl⟩
  rintro ⟨c, h⟩
  have hrest : Runs E (.ret (E.perform r s c).1) (E.perform r s c).2 x s' := by
    rw [h]
    exact .ret
  exact .ask c hrest

variable {p : Program ρ A α} {f : α → Program ρ A β}

@[simp]
theorem runs_bind : Runs E (p >>= f) s b s' ↔ ∃ a s1, Runs E p s a s1 ∧ Runs E (f a) s1 b s' := by
  constructor
  · intro h
    induction p generalizing s with
    | ret a => exact ⟨a, s, .ret, h⟩
    | ask r next ih =>
      cases h with
      | ask c rest =>
        obtain ⟨a, s1, hfirst, hlast⟩ := ih _ rest
        exact ⟨a, s1, .ask c hfirst, hlast⟩
  rintro ⟨a, s1, hfirst, hlast⟩
  induction hfirst with
  | ret => exact hlast
  | ask c _ ih => exact .ask c (ih hlast)

/-- The run in which every request is answered by one rule. -/
def play (E : Surroundings ρ A σ) (rule : (r : ρ) → E.Choice r) : Program ρ A α → σ → α × σ
  | .ret a, s => (a, s)
  | .ask r next, s => (next (E.perform r s (rule r)).1).play E rule (E.perform r s (rule r)).2

theorem runs_play (E : Surroundings ρ A σ) (rule : (r : ρ) → E.Choice r) (p : Program ρ A α)
    (s : σ) : Runs E p s (p.play E rule s).1 (p.play E rule s).2 := by
  induction p generalizing s with
  | ret a => exact .ret
  | ask r next ih => exact .ask (rule r) (ih _ _)

/-! ## What a program may ask -/

/-- Every request that the program may ask satisfies `Q`, whatever the answers before it are. -/
def Asks (Q : ρ → Prop) : Program ρ A α → Prop
  | .ret _ => True
  | .ask r next => Q r ∧ ∀ x, (next x).Asks Q

variable {Q : ρ → Prop}

theorem Asks.pure (a : α) : (pure a : Program ρ A α).Asks Q := trivial

theorem Asks.request (h : Q r) : (Program.request r : Program ρ A (A r)).Asks Q :=
  ⟨h, fun _ => trivial⟩

theorem Asks.bind (hp : p.Asks Q) (hf : ∀ a, (f a).Asks Q) : (p >>= f).Asks Q := by
  induction p with
  | ret a => exact hf a
  | ask r next ih => exact ⟨hp.1, fun x => ih x (hp.2 x)⟩

theorem Asks.of_forall (h : ∀ r, Q r) (p : Program ρ A α) : p.Asks Q := by
  induction p with
  | ret a => trivial
  | ask r next ih => exact ⟨h r, ih⟩

/-- A relation between states that every request of a program keeps to relates the ends of its
runs. -/
theorem Runs.related {R : σ → σ → Prop} (hrefl : ∀ s, R s s)
    (htrans : ∀ {s s1 s2}, R s s1 → R s1 s2 → R s s2)
    (hperform : ∀ r s c, Q r → R s (E.perform r s c).2) (h : Runs E p s a s') (hp : p.Asks Q) :
    R s s' := by
  induction h with
  | ret => exact hrefl _
  | @ask r next s _ _ c _ ih => exact htrans (hperform r s c hp.1) (ih (hp.2 _))

/-! ## Programs that may be cut off

A process that runs a program can end at any request. What has to hold whenever that happens is an
invariant of every state on the way, not only of the last one. -/

/-- The state of a run at some point: the process may end here. -/
inductive Reaches (E : Surroundings ρ A σ) : Program ρ A α → σ → σ → Prop where
  /-- Here. -/
  | here {p : Program ρ A α} {s : σ} : Reaches E p s s
  /-- After a request. -/
  | ask {r : ρ} {next : A r → Program ρ A α} {s s' : σ} (c : E.Choice r)
      (rest : Reaches E (next (E.perform r s c).1) (E.perform r s c).2 s') :
      Reaches E (.ask r next) s s'

theorem Runs.reaches (h : Runs E p s a s') : Reaches E p s s' := by
  induction h with
  | ret => exact .here
  | ask c _ ih => exact .ask c ih

/-- From the state `s` the program keeps the invariant `I` at every point, and ends in `Q`. -/
def Safe (E : Surroundings ρ A σ) (I : σ → Prop) (Q : α → σ → Prop) : Program ρ A α → σ → Prop
  | .ret a, s => I s ∧ Q a s
  | .ask r next, s => I s ∧ ∀ c, (next (E.perform r s c).1).Safe E I Q (E.perform r s c).2

variable {I : σ → Prop} {P : α → σ → Prop} {R : β → σ → Prop}

/-- The invariant holds where the program starts. -/
theorem Safe.inv (h : p.Safe E I P s) : I s := by
  cases p <;> exact h.1

/-- The invariant holds wherever the process ends. -/
theorem Safe.reaches (h : p.Safe E I P s) (hreach : Reaches E p s s') : I s' := by
  induction hreach with
  | here => exact h.inv
  | ask c _ ih => exact ih (h.2 c)

/-- What holds at the end of a run. -/
theorem Safe.runs (h : p.Safe E I P s) (hrun : Runs E p s a s') : P a s' := by
  induction hrun with
  | ret => exact h.2
  | ask c _ ih => exact ih (h.2 c)

theorem Safe.bind (hp : p.Safe E I P s)
    (hf : ∀ a s, I s → P a s → (f a).Safe E I R s) : (p >>= f).Safe E I R s := by
  induction p generalizing s with
  | ret a => exact hf a s hp.1 hp.2
  | ask r next ih => exact ⟨hp.1, fun c => ih _ (hp.2 c)⟩

theorem Safe.mono (h : p.Safe E I P s) (himp : ∀ a s, P a s → P' a s) : p.Safe E I P' s := by
  induction p generalizing s with
  | ret a => exact ⟨h.1, himp a s h.2⟩
  | ask r next ih => exact ⟨h.1, fun c => ih _ (h.2 c)⟩

/-- A relation that every request keeps to holds between the start and the end. -/
theorem Safe.related (h : p.Safe E I P s) (hrefl : ∀ s, S s s)
    (htrans : ∀ {s s1 s2}, S s s1 → S s1 s2 → S s s2)
    (hperform : ∀ r s c, S s (E.perform r s c).2) : p.Safe E I (fun a s' => P a s' ∧ S s s') s := by
  suffices ∀ s0, S s0 s → p.Safe E I (fun a s' => P a s' ∧ S s0 s') s from this s (hrefl s)
  intro s0 hs0
  induction p generalizing s with
  | ret a => exact ⟨h.1, h.2, hs0⟩
  | ask r next ih => exact ⟨h.1, fun c => ih _ (h.2 c) (htrans hs0 (hperform r s c))⟩

/-! ## Programs that may fail -/

/-- A program that returns a value or fails. -/
abbrev Fallible (ρ : Type) (A : ρ → Type) (ε α : Type) : Type := ExceptT ε (Program ρ A) α

variable {ε : Type}

/-- A request of a fallible program. -/
def Fallible.request (r : ρ) : Fallible ρ A ε (A r) := ExceptT.lift (Program.request r)

/-- A computed result of a fallible program. -/
def Fallible.check (x : Except ε α) : Fallible ρ A ε α := ExceptT.mk (.ret x)

/-- From the state `s` the program keeps the invariant `I` at every point, and ends in `P` if it
does not fail. -/
def Fallible.Ensures (E : Surroundings ρ A σ) (I : σ → Prop) (x : Fallible ρ A ε α)
    (P : α → σ → Prop) (s : σ) : Prop :=
  Safe E I (fun (a : Except ε α) s => ∀ v, a = .ok v → P v s) x s

namespace Fallible

theorem Ensures.pure (hI : I s) (hP : P a s) : Ensures E I (pure a : Fallible ρ A ε α) P s :=
  ⟨hI, fun _ h => Except.ok.inj h ▸ hP⟩

theorem Ensures.throw {e : ε} (hI : I s) : Ensures E I (throw e : Fallible ρ A ε α) P s :=
  ⟨hI, fun _ h => by cases h⟩

variable {x : Fallible ρ A ε α}

theorem Ensures.mono (h : Ensures E I x P s) (himp : ∀ a s, P a s → P' a s) : Ensures E I x P' s :=
  Safe.mono h fun _ s h v hv => himp v s (h v hv)

/-- One program after another, which runs only if the first does not fail. -/
theorem Ensures.bind {f : α → Fallible ρ A ε β} (hx : Ensures E I x P s)
    (hf : ∀ a s, I s → P a s → Ensures E I (f a) R s) : Ensures E I (x >>= f) R s := by
  refine Safe.bind hx fun a s hI hP => ?_
  cases a with
  | error e => exact ⟨hI, fun _ h => by cases h⟩
  | ok v => exact hf v s hI (hP v rfl)

theorem Ensures.check {x : Except ε α} {f : α → Fallible ρ A ε β} (hI : I s)
    (hf : ∀ a, x = .ok a → Ensures E I (f a) R s) : Ensures E I (Fallible.check x >>= f) R s :=
  Ensures.bind (P := fun a s' => s' = s ∧ x = .ok a) ⟨hI, fun _ h => ⟨rfl, h⟩⟩
    fun a _ _ ⟨hs, hx⟩ => hs ▸ hf a hx

theorem Ensures.request {f : A r → Fallible ρ A ε β} (hI : I s)
    (hf : ∀ c, Ensures E I (f (E.perform r s c).1) R (E.perform r s c).2) :
    Ensures E I (Fallible.request r >>= f) R s :=
  ⟨hI, fun c => hf c⟩

theorem Ensures.check_end {x : Except ε α} (hI : I s) (hx : ∀ a, x = .ok a → P a s) :
    Ensures E I (Fallible.check x : Fallible ρ A ε α) P s :=
  ⟨hI, hx⟩

theorem Ensures.foldlM {f : β → α → Fallible ρ A ε β} {R : β → σ → Prop} {l : List α}
    (hf : ∀ b a s, a ∈ l → I s → R b s → Ensures E I (f b a) R s) (hI : I s) (hR : R b s) :
    Ensures E I (l.foldlM f b) R s := by
  induction l generalizing b s with
  | nil => exact .pure hI hR
  | cons a l ih =>
    rw [List.foldlM_cons]
    refine .bind (hf b a s List.mem_cons_self hI hR) fun b s hI hR => ?_
    exact ih (fun b a s ha => hf b a s (List.mem_cons_of_mem _ ha)) hI hR

/-- A relation that every request keeps to holds between the start and the end. -/
theorem Ensures.related (h : Ensures E I x P s) (hrefl : ∀ s, S s s)
    (htrans : ∀ {s s1 s2}, S s s1 → S s1 s2 → S s s2)
    (hperform : ∀ r s c, S s (E.perform r s c).2) : Ensures E I x (fun a s' => P a s' ∧ S s s') s :=
  (Safe.related h hrefl htrans hperform).mono fun _ _ h v hv => ⟨h.1 v hv, h.2⟩

end Fallible

end Program

end Bria
