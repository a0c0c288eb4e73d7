import Mathlib.Logic.Basic

/-!
# Programs of steps that can go wrong

A program changes a state by steps, and handles their errors itself. A run has at most one
mishap, after a given number of steps: the step fails, and the program goes on with the
error; or everything stops there, and the state is what the steps before have made of it.
What a program does between two steps can not go wrong.

`Atomic` says of a part of a program that its effect comes with the last of its steps.
-/

namespace WeftBlock.Steps

/-- What becomes of a step that does not go through. -/
inductive Mishap
  /-- It has no effect, and the program gets an error. -/
  | fails
  /-- It has no effect, and nothing comes after it. -/
  | stops
deriving DecidableEq

/-- The mishap of a run, after so many more steps. -/
abbrev Plan := Option (Nat × Mishap)

/-- The mishap comes `n` steps later. -/
def later (n : Nat) : Plan → Plan := Option.map (fun e => (n + e.1, e.2))

theorem later_later (n m : Nat) (plan : Plan) : later n (later m plan) = later (n + m) plan := by
  cases plan with
  | none => rfl
  | some e =>
    show some (n + (m + e.1), e.2) = some (n + m + e.1, e.2)
    rw [Nat.add_assoc]

/-- How a program ends. -/
inductive Exit (ε α : Type)
  | ok (a : α)
  | error (e : ε)
  | panicked
  | stopped

/-- The end of a program that returns as a function does. -/
def Exit.of {ε α : Type} : Except ε α → Exit ε α
  | .ok a => .ok a
  | .error e => .error e

/-- The end of a run: how, in which state, and what is left of the plan. -/
structure Done (σ ε α : Type) where
  exit : Exit ε α
  state : σ
  plan : Plan

/-- A program over states `σ`. -/
def Prog (σ ε α : Type) : Type := σ → Plan → Done σ ε α

variable {σ ε α β : Type}

namespace Prog

protected def pure (a : α) : Prog σ ε α := fun s plan => ⟨.ok a, s, plan⟩

protected def bind (p : Prog σ ε α) (f : α → Prog σ ε β) : Prog σ ε β := fun s plan =>
  match p s plan with
  | ⟨.ok a, s, plan⟩ => f a s plan
  | ⟨.error e, s, plan⟩ => ⟨.error e, s, plan⟩
  | ⟨.panicked, s, plan⟩ => ⟨.panicked, s, plan⟩
  | ⟨.stopped, s, plan⟩ => ⟨.stopped, s, plan⟩

instance : Monad (Prog σ ε) where
  pure := Prog.pure
  bind := Prog.bind

/-- The state. -/
def get : Prog σ ε σ := fun s plan => ⟨.ok s, s, plan⟩

/-- A change that is not a step. -/
def modify (f : σ → σ) : Prog σ ε Unit := fun s plan => ⟨.ok (), f s, plan⟩

def throw (e : ε) : Prog σ ε α := fun s plan => ⟨.error e, s, plan⟩

def panic : Prog σ ε α := fun s plan => ⟨.panicked, s, plan⟩

/-- One step; `x` is the end of the program if it fails. -/
def step (x : Exit ε Unit) (f : σ → σ) : Prog σ ε Unit := fun s plan =>
  match plan with
  | none => ⟨.ok (), f s, none⟩
  | some (0, .fails) => ⟨x, s, none⟩
  | some (0, .stops) => ⟨.stopped, s, none⟩
  | some (k + 1, m) => ⟨.ok (), f s, some (k, m)⟩

/-- Go on with `h` after an error. -/
def onError (p : Prog σ ε α) (h : ε → Prog σ ε α) : Prog σ ε α := fun s plan =>
  match p s plan with
  | ⟨.error e, s, plan⟩ => h e s plan
  | d => d

/-- Go on after an error, with the error as the result. -/
def attempt (p : Prog σ ε Unit) : Prog σ ε (Option ε) :=
  onError (p.bind (fun _ => Prog.pure none)) (fun e => Prog.pure (some e))

/-- The clean-up `h` runs unless there was an error, after a panic too. -/
def unlessError (p : Prog σ ε Unit) (h : Prog σ ε Unit) : Prog σ ε Unit := fun s plan =>
  match p s plan with
  | ⟨.ok (), s, plan⟩ => h s plan
  | ⟨.panicked, s, plan⟩ => (h.bind (fun _ => panic)) s plan
  | d => d

end Prog

open Prog

/-! ## Running them -/

section Run

variable {p : Prog σ ε α} {f : α → Prog σ ε β} {s s' : σ} {plan plan' : Plan} {a : α} {e : ε}

theorem bind_ok (h : p s plan = ⟨.ok a, s', plan'⟩) : Prog.bind p f s plan = f a s' plan' := by
  rw [Prog.bind, h]

theorem bind_error (h : p s plan = ⟨.error e, s', plan'⟩) :
    Prog.bind p f s plan = ⟨.error e, s', plan'⟩ := by
  rw [Prog.bind, h]

theorem bind_panicked (h : p s plan = ⟨.panicked, s', plan'⟩) :
    Prog.bind p f s plan = ⟨.panicked, s', plan'⟩ := by
  rw [Prog.bind, h]

theorem bind_stopped (h : p s plan = ⟨.stopped, s', plan'⟩) :
    Prog.bind p f s plan = ⟨.stopped, s', plan'⟩ := by
  rw [Prog.bind, h]

theorem get_bind (f : σ → Prog σ ε β) : Prog.bind Prog.get f s plan = f s s plan := rfl

theorem onError_ok {h : ε → Prog σ ε α} (hp : p s plan = ⟨.ok a, s', plan'⟩) :
    onError p h s plan = ⟨.ok a, s', plan'⟩ := by
  rw [onError, hp]

theorem onError_error {h : ε → Prog σ ε α} (hp : p s plan = ⟨.error e, s', plan'⟩) :
    onError p h s plan = h e s' plan' := by
  rw [onError, hp]

section Unless

variable {p h : Prog σ ε Unit}

theorem unlessError_ok (hp : p s plan = ⟨.ok (), s', plan'⟩) :
    unlessError p h s plan = h s' plan' := by
  rw [unlessError, hp]

theorem unlessError_error (hp : p s plan = ⟨.error e, s', plan'⟩) :
    unlessError p h s plan = ⟨.error e, s', plan'⟩ := by
  rw [unlessError, hp]

theorem unlessError_panicked (hp : p s plan = ⟨.panicked, s', plan'⟩) :
    unlessError p h s plan = h.bind (fun _ => panic) s' plan' := by
  rw [unlessError, hp]

end Unless

end Run

/-! ## Parts of a program -/

/-- The end of a part at which the mishap happens, if `x` is its end after a failure. -/
def Mishap.exit (x : Exit ε α) : Mishap → Exit ε α
  | .fails => x
  | .stops => .stopped

/-- **The effect `f` comes with the last of `n` steps**; before it a failure ends with `x`. -/
structure Atomic (n : Nat) (x : Exit ε Unit) (f : σ → σ) (p : Prog σ ε Unit) : Prop where
  clean : ∀ s, p s none = ⟨.ok (), f s, none⟩
  before : ∀ s {k} m, k < n → p s (some (k, m)) = ⟨m.exit x, s, none⟩
  after : ∀ s k m, p s (some (n + k, m)) = ⟨.ok (), f s, some (k, m)⟩

theorem step_succ (x : Exit ε Unit) (f : σ → σ) (s : σ) (k : Nat) (m : Mishap) :
    step x f s (some (k + 1, m)) = ⟨.ok (), f s, some (k, m)⟩ := rfl

theorem atomic_step (x : Exit ε Unit) (f : σ → σ) : Atomic 1 x f (step x f) where
  clean _ := rfl
  before s k m hk := by
    obtain rfl : k = 0 := by omega
    cases m <;> rfl
  after s k m := by
    rw [Nat.add_comm 1 k]
    rfl

section

variable {n : Nat} {x : Exit ε Unit} {f : σ → σ} {p : Prog σ ε Unit} (h : Atomic n x f p)
include h

/-- The part goes through when the mishap comes after it. -/
theorem Atomic.past (s : σ) (plan : Plan) : p s (later n plan) = ⟨.ok (), f s, plan⟩ := by
  cases plan with
  | none => exact h.clean s
  | some e => exact h.after s e.1 e.2

/-- A step without an effect before it. -/
theorem Atomic.cons (hx : ∀ a, x ≠ .ok a) :
    Atomic (n + 1) x f (Prog.bind (step x id) (fun _ => p)) where
  clean s := (bind_ok ((atomic_step x id).clean s)).trans (h.clean s)
  before s k m hk := by
    cases k with
    | zero =>
      have hs := (atomic_step x (id : σ → σ)).before s m Nat.zero_lt_one
      cases m with
      | stops => exact bind_stopped hs
      | fails =>
        cases x with
        | ok a => exact absurd rfl (hx a)
        | error e => exact bind_error hs
        | panicked => exact bind_panicked hs
        | stopped => exact bind_stopped hs
    | succ k => exact (bind_ok (step_succ x id s k m)).trans (h.before s m (by omega))
  after s k m := by
    rw [Nat.add_right_comm]
    exact (bind_ok (step_succ x id s (n + k) m)).trans (h.after s k m)

end

section Attempt

variable {n : Nat} {e : ε} {f : σ → σ} {p : Prog σ ε Unit}

theorem Atomic.attempt_past {x : Exit ε Unit} (h : Atomic n x f p) (s : σ) (plan : Plan) :
    attempt p s (later n plan) = ⟨.ok none, f s, plan⟩ :=
  onError_ok ((bind_ok (h.past s plan)).trans rfl)

theorem Atomic.attempt_fails (h : Atomic n (.error e) f p) (s : σ) {k : Nat} (hk : k < n) :
    attempt p s (some (k, .fails)) = ⟨.ok (some e), s, none⟩ :=
  (onError_error (bind_error (h.before s .fails hk))).trans rfl

end Attempt

end WeftBlock.Steps
