import Mathlib.Algebra.BigOperators.Group.List.Basic
import Mathlib.Tactic.Ring

/-!
# Support — Tensor

Flattened tensors that fill their shape.  A batch is a tensor whose first dimension counts its
rows; `stack` puts rows together and `Tensor.row` cuts one out again (`row_stack`).
-/

namespace Support

variable {α : Type*}

/-- The elements of one item of this shape, without the batch dimension. -/
structure Row (α : Type*) (s : List ℕ) where
  data : List α
  size_eq : data.length = s.prod

/-- A tensor. -/
structure Tensor (α : Type*) where
  shape : List ℕ
  data : List α
  size_eq : data.length = shape.prod

variable {s : List ℕ} {n : ℕ}

theorem Row.length_flatMap (rs : List (Row α s)) :
    (rs.flatMap (·.data)).length = rs.length * s.prod := by
  induction rs with
  | nil => simp
  | cons r rs ih =>
      rw [List.flatMap_cons, List.length_append, r.size_eq, ih, List.length_cons]
      ring

/-- The batch of one item. -/
def Row.tensor (r : Row α s) : Tensor α where
  shape := 1 :: s
  data := r.data
  size_eq := by rw [r.size_eq, List.prod_cons, one_mul]

/-- The batch of the rows. -/
def stack (rs : List (Row α s)) : Tensor α where
  shape := rs.length :: s
  data := rs.flatMap (·.data)
  size_eq := by rw [Row.length_flatMap, List.prod_cons]

/-- The row at a position of a batch. -/
def Tensor.row (t : Tensor α) (h : t.shape = n :: s) (i : Fin n) : Row α s where
  data := (t.data.drop (i * s.prod)).take s.prod
  size_eq := by
    have hroom : (i + 1) * s.prod ≤ n * s.prod := Nat.mul_le_mul_right _ i.isLt
    rw [add_mul, one_mul] at hroom
    rw [List.length_take, List.length_drop, t.size_eq, h, List.prod_cons]
    omega

@[ext] theorem Row.ext {a b : Row α s} (h : a.data = b.data) : a = b := by
  cases a
  cases b
  cases h
  rfl

theorem stack_singleton (r : Row α s) : stack [r] = r.tensor := by
  simp [stack, Row.tensor]

theorem take_drop_flatMap (rs : List (Row α s)) :
    ∀ (i : ℕ) (h : i < rs.length), ((rs.flatMap (·.data)).drop (i * s.prod)).take s.prod =
      rs[i].data := by
  induction rs with
  | nil => exact fun i h => absurd h (Nat.not_lt_zero i)
  | cons r rs ih =>
      intro i h
      cases i with
      | zero =>
          rw [Nat.zero_mul, List.drop_zero, List.flatMap_cons, List.take_append_of_le_length
            r.size_eq.ge, List.take_of_length_le r.size_eq.le]
          rfl
      | succ i =>
          have hskip : (i + 1) * s.prod = r.data.length + i * s.prod := by
            rw [r.size_eq]; ring
          rw [hskip, List.flatMap_cons, List.drop_length_add_append]
          exact ih i (Nat.lt_of_succ_lt_succ h)

/-- **Stacking and cutting**: the row at a position is the one stacked there. -/
theorem row_stack (rs : List (Row α s)) (h : (stack rs).shape = n :: s) (i : Fin n)
    (hi : (i : ℕ) < rs.length) : (stack rs).row h i = rs[(i : ℕ)] := by
  ext1
  exact take_drop_flatMap rs i hi

end Support
