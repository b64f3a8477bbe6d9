import Mathlib.Data.List.DropRight

/-!
# Support — Trimmed

A queue from whose front elements are popped while it is too long.  What counts as too long is a
test of the number of elements, which need not be a bound: the loop may come to an empty queue that
is still too long.

* `popWhile`: the loop; `none` when it pops an empty queue.
* `BoundUpTo n m tooLong`: up to `n` elements the test is whether there are more than `m`.
* `popWhile_eq_rtake`: then the last `m` elements are left.
* `popWhile_concat`: a queue that is trimmed after each push holds the last `m` elements pushed.
-/

namespace Support

variable {α : Type*} {tooLong : ℕ → Prop} {n m : ℕ}

/-- Up to `n` elements are too many exactly when they are more than `m`. -/
def BoundUpTo (tooLong : ℕ → Prop) (n m : ℕ) : Prop := ∀ k ≤ n, tooLong k ↔ m < k

theorem BoundUpTo.mono (h : BoundUpTo tooLong n m) {k : ℕ} (hk : k ≤ n) : BoundUpTo tooLong k m :=
  fun i hi => h i (hi.trans hk)

/-- `while (too long) queue.pop_front();` -/
def popWhile (tooLong : ℕ → Prop) [DecidablePred tooLong] : List α → Option (List α)
  | [] => if tooLong 0 then none else some []
  | front :: queue =>
      if tooLong (queue.length + 1) then popWhile tooLong queue else some (front :: queue)

variable [DecidablePred tooLong]

theorem popWhile_of_fits {queue : List α} (h : ¬ tooLong queue.length) :
    popWhile tooLong queue = some queue := by
  cases queue with
  | nil => exact if_neg h
  | cons front queue => exact if_neg h

/-- The loop pops an empty queue when every length it comes through is too long. -/
theorem popWhile_eq_none {queue : List α} (h : ∀ k ≤ queue.length, tooLong k) :
    popWhile tooLong queue = none := by
  induction queue with
  | nil => exact if_pos (h 0 le_rfl)
  | cons front queue ih =>
      have hlong : tooLong (queue.length + 1) := h _ le_rfl
      rw [popWhile, if_pos hlong]
      exact ih fun k hk => h k (hk.trans (Nat.le_succ _))

/-- **The last `m` elements are left.** -/
theorem popWhile_eq_rtake {queue : List α} (h : BoundUpTo tooLong queue.length m) :
    popWhile tooLong queue = some (queue.rtake m) := by
  induction queue with
  | nil =>
      have hfits : ¬ tooLong 0 := fun hlong => Nat.not_lt_zero m ((h 0 le_rfl).mp hlong)
      rw [popWhile_of_fits hfits, List.rtake_nil]
  | cons front queue ih =>
      have hlength : (front :: queue).length = queue.length + 1 := rfl
      by_cases hlong : m < queue.length + 1
      · have hdrop : queue.length + 1 - m = queue.length - m + 1 := by omega
        have htest : tooLong (queue.length + 1) := (h _ le_rfl).mpr hlong
        rw [popWhile, if_pos htest, ih (h.mono (Nat.le_succ _)), List.rtake, List.rtake, hlength,
          hdrop, List.drop_succ_cons]
      · have hall : (front :: queue).rtake m = front :: queue := by
          rw [List.rtake, hlength, Nat.sub_eq_zero_of_le (Nat.le_of_not_lt hlong), List.drop_zero]
        rw [hall]
        exact popWhile_of_fits fun htest => hlong ((h _ le_rfl).mp htest)

theorem length_rtake (l : List α) (m : ℕ) : (l.rtake m).length = min m l.length := by
  rw [List.rtake, List.length_drop]
  omega

theorem rtake_of_length_le {l : List α} (h : l.length ≤ m) : l.rtake m = l := by
  rw [List.rtake, Nat.sub_eq_zero_of_le h, List.drop_zero]

theorem rtake_rtake (l : List α) (m n : ℕ) : (l.rtake m).rtake n = l.rtake (min n m) := by
  rw [List.rtake_eq_reverse_take_reverse, List.rtake_eq_reverse_take_reverse l,
    List.rtake_eq_reverse_take_reverse l, List.reverse_reverse, List.take_take]

/-- What was dropped before is among what is dropped later. -/
theorem rtake_rtake_concat (l : List α) (a : α) (m : ℕ) :
    (l.rtake m ++ [a]).rtake m = (l ++ [a]).rtake m := by
  cases m with
  | zero => rw [List.rtake_zero, List.rtake_zero]
  | succ m =>
      rw [List.rtake_concat_succ, List.rtake_concat_succ, rtake_rtake, min_eq_left m.le_succ]

/-- **A push and a trim** of a queue that holds the last `m` elements. -/
theorem popWhile_concat {l : List α} {a : α} (h : BoundUpTo tooLong (min m l.length + 1) m) :
    popWhile tooLong (l.rtake m ++ [a]) = some ((l ++ [a]).rtake m) := by
  have hlength : (l.rtake m ++ [a]).length = min m l.length + 1 := by
    rw [List.length_append, length_rtake, List.length_singleton]
  rw [popWhile_eq_rtake (hlength ▸ h), rtake_rtake_concat]

end Support
