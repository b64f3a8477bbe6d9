import Mathlib.Data.List.Basic
import Mathlib.Data.Nat.Notation
import Mathlib.Tactic.TypeStar

/-!
# Support — Countdown

Counting the elements of one kind along a list down from a number, and marking the one that the
count gets to.

* `countdown`: the marks; from 0 on nothing is marked.
* `countdown_ne`: a longer countdown over fewer elements gets to a later one, or to none.
* `countdown_eq_iff`: leaving elements out of the count changes no mark exactly if none of them is
  among the ones that were counted.
-/

namespace Support

variable {α : Type*} {p q : α → Bool}

/-- Is this the element that the countdown from `n` over the elements of kind `p` gets to? -/
def countdown (p : α → Bool) : ℕ → List α → List Bool
  | _, [] => []
  | 0, _ :: l => false :: countdown p 0 l
  | n + 1, a :: l =>
      if p a then decide (n = 0) :: countdown p n l else false :: countdown p (n + 1) l

theorem countdown_zero (p : α → Bool) (l : List α) :
    countdown p 0 l = List.replicate l.length false := by
  induction l with
  | nil => rfl
  | cons a l ih => rw [countdown, ih, List.length_cons, List.replicate_succ]

theorem countdown_of_pos {n : ℕ} {a : α} (h : p a = true) (l : List α) :
    countdown p (n + 1) (a :: l) = decide (n = 0) :: countdown p n l := if_pos h

theorem countdown_of_neg {n : ℕ} {a : α} (h : ¬ p a = true) (l : List α) :
    countdown p (n + 1) (a :: l) = false :: countdown p (n + 1) l := if_neg h

theorem countdown_cons (n : ℕ) (a : α) (l : List α) :
    countdown p n (a :: l) =
      if p a then decide (n = 1) :: countdown p (n - 1) l else false :: countdown p n l := by
  cases n with
  | zero => simp [countdown]
  | succ n => simp [countdown]

@[simp] theorem length_countdown (p : α → Bool) (n : ℕ) (l : List α) :
    (countdown p n l).length = l.length := by
  induction l generalizing n with
  | nil => rfl
  | cons a l ih =>
      rw [countdown_cons]
      split <;> rw [List.length_cons, ih, List.length_cons]

/-- Two countdowns, the second a longer one over fewer elements: they mark the same only when the
first does not come to its end. -/
theorem countdown_ne (hqp : ∀ a, q a = true → p a = true) {m n : ℕ} (hm : 0 < m) (hmn : m < n)
    {l : List α} (h : countdown p m l = countdown q n l) : (l.filter p).length < m := by
  induction l generalizing m n with
  | nil => exact hm
  | cons a l ih =>
      obtain ⟨m, rfl⟩ := Nat.exists_eq_succ_of_ne_zero (Nat.ne_zero_of_lt hm)
      obtain ⟨n, rfl⟩ := Nat.exists_eq_succ_of_ne_zero (Nat.ne_zero_of_lt hmn)
      have hne : n ≠ 0 := by omega
      by_cases hp : p a = true
      · rw [Nat.succ_eq_add_one, Nat.succ_eq_add_one, countdown_of_pos hp] at h
        by_cases hq : q a = true
        · rw [countdown_of_pos hq] at h
          obtain ⟨hmark, hrest⟩ := List.cons_eq_cons.mp h
          have hm' : m ≠ 0 := by simpa [hne] using hmark
          rw [List.filter_cons_of_pos hp, List.length_cons]
          exact Nat.succ_lt_succ (ih (Nat.pos_of_ne_zero hm') (by omega) hrest)
        · rw [countdown_of_neg hq] at h
          obtain ⟨hmark, hrest⟩ := List.cons_eq_cons.mp h
          have hm' : m ≠ 0 := by simpa using hmark
          rw [List.filter_cons_of_pos hp, List.length_cons]
          exact Nat.succ_lt_succ (ih (Nat.pos_of_ne_zero hm') (by omega) hrest)
      · have hq : ¬ q a = true := fun hq => hp (hqp a hq)
        rw [Nat.succ_eq_add_one, Nat.succ_eq_add_one, countdown_of_neg hp, countdown_of_neg hq] at h
        rw [List.filter_cons_of_neg hp]
        exact ih hm hmn (List.cons_eq_cons.mp h).2

/-- When the first countdown does not come to its end, nor does the second, and nothing is
marked. -/
theorem countdown_eq_of_length_lt {n : ℕ} {l : List α} (h : (l.filter p).length < n) :
    countdown p n l = List.replicate l.length false := by
  induction l generalizing n with
  | nil => cases n <;> rfl
  | cons a l ih =>
      obtain ⟨n, rfl⟩ := Nat.exists_eq_succ_of_ne_zero (Nat.ne_zero_of_lt h)
      rw [List.length_cons, List.replicate_succ]
      by_cases hp : p a = true
      · rw [List.filter_cons_of_pos hp, List.length_cons] at h
        rw [countdown_of_pos hp, ih (Nat.lt_of_succ_lt_succ h)]
        simp only [List.cons.injEq, decide_eq_false_iff_not, and_true]
        omega
      · rw [List.filter_cons_of_neg hp] at h
        rw [countdown_of_neg hp, ih h]

/-- **Leaving elements out of the count** changes no mark exactly if the countdown does not come to
its end, or counted none of them. -/
theorem countdown_eq_iff (hqp : ∀ a, q a = true → p a = true) {n : ℕ} {l : List α} :
    countdown p n l = countdown q n l ↔
      (n ≤ (l.filter p).length → ∀ a ∈ (l.filter p).take n, q a = true) := by
  induction l generalizing n with
  | nil => simp [countdown]
  | cons a l ih =>
      cases n with
      | zero => simp [countdown_zero]
      | succ n =>
          by_cases hp : p a = true
          · rw [countdown_of_pos hp, List.filter_cons_of_pos hp, List.length_cons,
              List.take_succ_cons, List.forall_mem_cons, Nat.succ_le_succ_iff]
            by_cases hq : q a = true
            · rw [countdown_of_pos hq, List.cons_eq_cons, and_iff_right rfl, ih]
              exact imp_congr_right fun _ => (and_iff_right hq).symm
            · -- the count goes on without this element
              have hshort : (n ≤ (l.filter p).length →
                  q a = true ∧ ∀ b ∈ (l.filter p).take n, q b = true) ↔
                    (l.filter p).length < n := by
                rw [← Nat.not_le]
                exact ⟨fun h hle => hq (h hle).1, fun h hle => absurd hle h⟩
              rw [countdown_of_neg hq, hshort, List.cons_eq_cons, decide_eq_false_iff_not]
              constructor
              · rintro ⟨hn, h⟩
                exact countdown_ne hqp (Nat.pos_of_ne_zero hn) (Nat.lt_succ_self n) h
              · intro h
                have hq' : (l.filter q).length < n + 1 := by
                  have := (List.monotone_filter_right l hqp).length_le
                  omega
                refine ⟨by omega, ?_⟩
                rw [countdown_eq_of_length_lt h, countdown_eq_of_length_lt hq']
          · have hq : ¬ q a = true := fun hq => hp (hqp a hq)
            rw [countdown_of_neg hp, countdown_of_neg hq, List.filter_cons_of_neg hp,
              List.cons_eq_cons, and_iff_right rfl, ih]

end Support
