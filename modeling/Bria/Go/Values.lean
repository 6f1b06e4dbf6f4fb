import Bria.Go.Text

/-!
# Errors, contexts and instants

The standard-library values that every package passes around. An error is a sentinel, a message,
a wrapping of another error or a join of two, and `errors.Is` looks for a sentinel through
wrappings and joins. Sentinels are a parameter: the packages that are verified together list
theirs. A check of the source returns an error or nil; here it is an `Except` without a value, and
`refuse` is the check that returns an error when a condition holds.
-/

namespace Bria.Go

/-- A Go error over the sentinels `σ`. -/
inductive GoError (σ : Type) where
  /-- A package-level `errors.New`, which `errors.Is` recognizes. -/
  | sentinel (s : σ)
  /-- An error made where it is returned. -/
  | message (text : String)
  /-- `fmt.Errorf` with a `%w` verb after the text. -/
  | wrap (text : String) (inner : GoError σ)
  /-- `errors.Join` of two errors. -/
  | join (left right : GoError σ)
  deriving DecidableEq

/-- `errors.Is` with a sentinel for its target. -/
def GoError.is {σ : Type} [DecidableEq σ] (target : σ) : GoError σ → Bool
  | .sentinel s => s = target
  | .message _ => false
  | .wrap _ inner => inner.is target
  | .join left right => left.is target || right.is target

/-- `errors.Join` of two results, either of which may be nil. -/
def joinErrors {σ : Type} : Option (GoError σ) → Option (GoError σ) → Option (GoError σ)
  | none, right => right
  | some left, none => some left
  | some left, some right => some (.join left right)

theorem joinErrors_eq_none {σ : Type} {left right : Option (GoError σ)} :
    joinErrors left right = none ↔ left = none ∧ right = none := by
  cases left <;> cases right <;> simp [joinErrors]

/-- The check that returns `e` when `c` holds. -/
def refuse {ε : Type} (c : Bool) (e : ε) : Except ε Unit := if c then .error e else .ok ()

variable {ε : Type} {c : Bool} {u : Unit}

/-- A refusal passes exactly when its condition fails. -/
@[simp]
theorem refuse_eq_ok {e : ε} : refuse c e = .ok u ↔ c = false := by
  cases c <;> simp [refuse]

/-- A sequence of fallible steps succeeds exactly when each of them does. -/
theorem bind_eq_ok {α β : Type} {x : Except ε α} {f : α → Except ε β} {r : β} :
    (x >>= f) = .ok r ↔ ∃ a, x = .ok a ∧ f a = .ok r := by
  cases x <;> simp [bind, Except.bind]

@[simp]
theorem check_eq_ok {β : Type} {x : Except ε Unit} {f : Unit → Except ε β} {r : β} :
    (x >>= f) = .ok r ↔ x = .ok () ∧ f () = .ok r := by
  cases x <;> simp [bind, Except.bind]

/-- What comes after a check. -/
theorem of_check {β : Type} {x : Except ε Unit} {f : Unit → Except ε β} {r : β}
    (h : (x >>= f) = .ok r) : f () = .ok r :=
  (check_eq_ok.mp h).2

/-- A value that must be there passes exactly when it is there. -/
theorem elim_error_ok {α : Type} {x : Option α} {e : ε} {a : α} :
    (x.elim (.error e) .ok : Except ε α) = .ok a ↔ x = some a := by
  cases x <;> simp

/-- A step whose error is replaced succeeds when the step does. -/
theorem mapError_eq_ok {ε' α : Type} {x : Except ε α} {f : ε → ε'} {a : α} :
    x.mapError f = .ok a ↔ x = .ok a := by
  cases x <;> simp [Except.mapError]

/-- A sequence that starts with a refusal fails there or after it. -/
theorem refuse_bind_eq_error {β : Type} {e e' : ε} {f : Unit → Except ε β} :
    (refuse c e >>= f) = .error e' ↔ c ∧ e' = e ∨ c = false ∧ f () = .error e' := by
  cases c <;> simp [refuse, bind, Except.bind, eq_comm]

/-- A check over a list passes exactly when it passes on every element. -/
@[simp]
theorem forM_eq_ok {α : Type} {l : List α} {f : α → Except ε Unit} :
    forM l f = .ok u ↔ ∀ a ∈ l, f a = .ok () := by
  induction l with
  | nil => simp [pure, Except.pure]
  | cons a l ih => simp [ih]

/-- The error of a check, nil when it passed. -/
def errorOf {ε α : Type} : Except ε α → Option ε
  | .error e => some e
  | .ok _ => none

@[simp]
theorem errorOf_eq_none {x : Except ε Unit} : errorOf x = none ↔ x = .ok () := by
  cases x <;> simp [errorOf]

/-! ## Errors that a sentinel does not match -/

section Avoids

variable {σ : Type} [DecidableEq σ] {target : σ} {α β : Type} {e : GoError σ}
  {x : Except (GoError σ) α}

/-- A step whose error, if it has one, `errors.Is` does not find `target` in. -/
def Avoids (target : σ) (x : Except (GoError σ) α) : Prop := ∀ e, x = .error e → e.is target = false

theorem Avoids.ok (a : α) : Avoids target (.ok a : Except (GoError σ) α) := by
  intro e h
  cases h

theorem Avoids.error (he : e.is target = false) : Avoids target (.error e : Except (GoError σ) α) := by
  intro e' h
  exact Except.error.inj h ▸ he

theorem Avoids.refuse (c : Bool) (he : e.is target = false) : Avoids target (Go.refuse c e) := by
  intro e' h
  cases c
  · simp [Go.refuse] at h
  simp only [Go.refuse, if_true, Except.error.injEq] at h
  exact h ▸ he

theorem Avoids.bind {f : α → Except (GoError σ) β} (hx : Avoids target x)
    (hf : ∀ a, Avoids target (f a)) : Avoids target (x >>= f) := by
  cases x with
  | error e => exact fun e' h => hx e' (by simpa [Bind.bind, Except.bind] using h)
  | ok a => exact hf a

/-- A check and what follows it. -/
theorem Avoids.check {c : Bool} {f : Unit → Except (GoError σ) α} (he : e.is target = false)
    (hf : Avoids target (f ())) : Avoids target (Go.refuse c e >>= f) :=
  .bind (.refuse c he) fun _ => hf

theorem Avoids.foldlM {f : β → α → Except (GoError σ) β} (hf : ∀ b a, Avoids target (f b a))
    (l : List α) (b : β) : Avoids target (l.foldlM f b) := by
  induction l generalizing b with
  | nil => exact .ok b
  | cons a l ih => exact .bind (hf b a) ih

theorem Avoids.forM {f : α → Except (GoError σ) Unit} (hf : ∀ a, Avoids target (f a))
    (l : List α) : Avoids target (l.forM f) := by
  induction l with
  | nil => exact .ok ()
  | cons a l ih => exact .bind (hf a) fun _ => ih

theorem Avoids.mapError {g : GoError σ → GoError σ} (hx : Avoids target x)
    (hg : ∀ e, e.is target = false → (g e).is target = false) : Avoids target (x.mapError g) := by
  cases x with
  | error e =>
    intro e' h
    simp only [Except.mapError, Except.error.injEq] at h
    exact h ▸ hg e (hx e rfl)
  | ok a => exact .ok a

theorem Avoids.mapError_const (he : e.is target = false) :
    Avoids target (x.mapError fun _ => e) := by
  cases x with
  | error e' =>
    intro e'' h
    simp only [Except.mapError, Except.error.injEq] at h
    exact h ▸ he
  | ok a => exact .ok a

end Avoids

/-! ## Slices, contexts, instants and counters -/

/-- A slice, for code that tells a nil slice from an empty one. -/
abbrev Slice (α : Type) := Option (List α)

/-- `^uint64(0)`. -/
def maxUint64 : Nat := 0xFFFFFFFFFFFFFFFF

/-- What a call sees of its context: whether `ctx.Err()` is non-nil when the call starts, and again
when a store runs the change it was given. -/
structure Context where
  /-- Cancelled at the start of the call. -/
  cancelled : Bool := false
  /-- Cancelled inside the change. -/
  cancelledLater : Bool := false

/-- `context.WithoutCancel`. -/
def Context.withoutCancel (_ : Context) : Context := {}

/-- A `time.Time`: nanoseconds from the Unix epoch. -/
structure Time where
  /-- The instant. -/
  nanos : Int
  deriving DecidableEq

/-- `Time.UnixNano`, which wraps outside the years 1678 to 2262. -/
def Time.unixNano (t : Time) : Int := t.nanos.bmod 0x10000000000000000

/-- `Time.Add`, with a duration in nanoseconds. -/
def Time.add (t : Time) (duration : Int) : Time := ⟨t.nanos + duration⟩

/-- `Time.Sub` in nanoseconds, which saturates. -/
def Time.sub (t u : Time) : Int :=
  max (-9223372036854775808) (min 9223372036854775807 (t.nanos - u.nanos))

/-- A difference is positive exactly between instants in this order. -/
theorem Time.sub_le_zero {t u : Time} : t.sub u ≤ 0 ↔ t.nanos ≤ u.nanos := by
  unfold Time.sub
  omega

/-- `Time.After`. -/
def Time.after (t u : Time) : Bool := u.nanos < t.nanos

/-- `time.Time{}`, the first instant of the year 1. -/
def Time.zero : Time := ⟨-62135596800000000000⟩

/-- `Time.IsZero`. -/
def Time.isZero (t : Time) : Bool := t.nanos = -62135596800000000000

end Bria.Go
