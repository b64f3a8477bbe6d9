import Mathlib.Tactic.TypeStar

/-!
# Support — Guarded

What one thread does with a state behind a mutex that is not recursive.  A thread that locks the
mutex while it holds it waits for itself, and does not go on.

* `Guarded`: such computations, as a monad; `none` is a thread that waits for itself.
* `holding`: the mutex is held for the whole of a computation.
* `Returns`: a thread that starts without the mutex goes on and ends without it.
* `returns_locked`, `returns_bind`: critical sections, and one after the other.
* `locked_bind_held`: a thread that holds the mutex does not get into one.
-/

namespace Support

universe u

/-- The state, and whether the thread holds the mutex. -/
structure Mutexed (σ : Type u) where
  state : σ
  held : Bool := false

/-- A computation of a thread; `none` where it waits for itself. -/
abbrev Guarded (σ : Type u) := StateT (Mutexed σ) Option

namespace Guarded

variable {σ α : Type u}

/-- `{ std::lock_guard lock(mutex); … }` -/
def holding (body : Guarded σ α) : Guarded σ α := fun s =>
  if s.held then none
  else (body { s with held := true }).map fun result => (result.1, { result.2 with held := false })

/-- A look at the state and a change of it. -/
def access (f : σ → α × σ) : Guarded σ α := fun s =>
  some ((f s.state).1, { s with state := (f s.state).2 })

/-- A critical section that calls nothing which locks. -/
def locked (f : σ → α × σ) : Guarded σ α := holding (access f)

theorem holding_free (body : Guarded σ α) (s : σ) :
    holding body ⟨s, false⟩ =
      (body ⟨s, true⟩).map fun result => (result.1, { result.2 with held := false }) := rfl

/-- A thread that does not hold the mutex gets through. -/
theorem locked_free (f : σ → α × σ) (s : σ) :
    locked f ⟨s, false⟩ = some ((f s).1, ⟨(f s).2, false⟩) := rfl

/-- One computation, then another that is given its result. -/
theorem bind_of_some {β : Type u} {p : Guarded σ α} {f : α → Guarded σ β} {s s' : Mutexed σ} {a : α}
    (h : p s = some (a, s')) : (p >>= f) s = f a s' := by
  have hbind : (p >>= f) s = (p s).bind fun result => f result.1 result.2 := rfl
  rw [hbind, h, Option.bind_some]

/-- A thread that starts without the mutex goes on, and ends without it. -/
def Returns (p : Guarded σ α) : Prop := ∀ s, ∃ a s', p ⟨s, false⟩ = some (a, ⟨s', false⟩)

theorem returns_pure (a : α) : Returns (pure a : Guarded σ α) := fun s => ⟨a, s, rfl⟩

theorem returns_locked (f : σ → α × σ) : Returns (locked f) := fun s => ⟨_, _, locked_free f s⟩

theorem returns_bind {β : Type u} {p : Guarded σ α} {f : α → Guarded σ β} (hp : Returns p)
    (hf : ∀ a, Returns (f a)) : Returns (p >>= f) := by
  intro s
  obtain ⟨a, s', h⟩ := hp s
  rw [bind_of_some h]
  exact hf a s'

/-- A computation whose result is not looked at. -/
def ignore (p : Guarded σ α) : Guarded σ PUnit := p >>= fun _ => pure ⟨⟩

/-- What comes of a computation whose result is not looked at. -/
theorem ignore_eq (p : Guarded σ α) (s : Mutexed σ) :
    ignore p s = (p s).map fun result => (⟨⟩, result.2) := by
  cases h : p s with
  | none =>
      have hbind : ignore p s = (p s).bind fun result => some (⟨⟩, result.2) := rfl
      rw [hbind, h, Option.bind_none, Option.map_none]
  | some result => rw [ignore, bind_of_some h, Option.map_some]; rfl

theorem access_bind {β : Type u} (f : σ → α × σ) (g : α → Guarded σ β) (s : Mutexed σ) :
    (access f >>= g) s = g (f s.state).1 { s with state := (f s.state).2 } := rfl

theorem locked_bind {β : Type u} (f : σ → α × σ) (g : α → Guarded σ β) (s : σ) :
    (locked f >>= g) ⟨s, false⟩ = g (f s).1 ⟨(f s).2, false⟩ :=
  bind_of_some (locked_free f s)

/-- A thread that holds the mutex waits for itself. -/
theorem locked_bind_held {β : Type u} (f : σ → α × σ) (g : α → Guarded σ β) (s : σ) :
    (locked f >>= g) ⟨s, true⟩ = none := rfl

end Guarded

end Support
