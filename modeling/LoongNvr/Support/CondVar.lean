import Mathlib.Order.Nat

/-!
# Support — CondVar

A thread in `wait` on a condition variable with a predicate, one atomic step after the other: it
takes the mutex, tests the predicate, and where it is false blocks and gives the mutex up.  A
notification reaches it only when it is blocked.

* `Waiting.turn`, `Waiting.notified`: its steps, and what a notification does.
* `awake_notified`: a notification is lost exactly on a thread between its test and its blocking.
* `Awake.turn`: one that is awake stays so while its predicate is true.
* `turnsLeft_turn`: it is past the wait after as many turns as it has left.
-/

namespace Support

/-- Where the thread is: before it takes the mutex, first or woken; before its test; between a test
that was false and its blocking; blocked; past the wait. -/
inductive Waiting
  | locking
  | testing
  | sleeping
  | blocked
  | past
  deriving DecidableEq, Repr

namespace Waiting

/-- It holds the mutex. -/
def holds : Waiting → Bool
  | .testing | .sleeping | .past => true
  | .locking | .blocked => false

/-- Its next step, by whether the mutex is free and whether the predicate is true. -/
def turn (free ready : Bool) : Waiting → Waiting
  | .locking => if free then .testing else .locking
  | .testing => if ready then .past else .sleeping
  | .sleeping => .blocked
  | .blocked => .blocked
  | .past => .past

/-- It is notified. -/
def notified : Waiting → Waiting
  | .blocked => .locking
  | w => w

/-- It neither is blocked nor about to block. -/
def Awake (w : Waiting) : Prop := w ≠ .sleeping ∧ w ≠ .blocked

/-- How many of its turns it is before the end of the wait, while its predicate is true and the
mutex free; none where these do not end it. -/
def turnsLeft : Waiting → Option ℕ
  | .past => some 0
  | .testing => some 1
  | .locking => some 2
  | .sleeping | .blocked => none

variable {w : Waiting} {free ready : Bool}

/-- **A notification is lost** exactly between the test and the blocking. -/
theorem awake_notified : Awake w.notified ↔ w ≠ .sleeping := by
  cases w <;> simp [Awake, notified]

/-- A notification gives no mutex away, and none back. -/
@[simp] theorem holds_notified : w.notified.holds = w.holds := by cases w <;> rfl

theorem Awake.turn (h : Awake w) : Awake (w.turn free true) := by
  cases w with
  | locking => cases free <;> exact ⟨nofun, nofun⟩
  | testing => exact ⟨nofun, nofun⟩
  | sleeping => exact absurd rfl h.1
  | blocked => exact absurd rfl h.2
  | past => exact h

/-- It comes to hold the mutex only if that was free. -/
theorem holds_turn (h : (w.turn free ready).holds = true) : w.holds = true ∨ free = true := by
  cases w with
  | locking =>
      cases free with
      | true => exact .inr rfl
      | false => exact .inl h
  | testing => exact .inl rfl
  | sleeping => cases h
  | blocked => cases h
  | past => exact .inl rfl

theorem turnsLeft_isSome (h : Awake w) : ∃ k ≤ 2, w.turnsLeft = some k := by
  cases w with
  | locking => exact ⟨2, le_rfl, rfl⟩
  | testing => exact ⟨1, Nat.le_succ 1, rfl⟩
  | sleeping => exact absurd rfl h.1
  | blocked => exact absurd rfl h.2
  | past => exact ⟨0, Nat.zero_le 2, rfl⟩

theorem turnsLeft_turn {k : ℕ} (h : w.turnsLeft = some (k + 1)) :
    (w.turn true true).turnsLeft = some k := by
  cases w with
  | locking => exact congrArg some (Nat.succ.inj (Option.some.inj h))
  | testing => exact congrArg some (Nat.succ.inj (Option.some.inj h))
  | sleeping => cases h
  | blocked => cases h
  | past => cases h

end Waiting

end Support
