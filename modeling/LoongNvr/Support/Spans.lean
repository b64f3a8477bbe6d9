import Mathlib.Algebra.BigOperators.Group.List.Basic
import Mathlib.Data.List.Chain
import Mathlib.Algebra.Ring.Nat
import Mathlib.Order.Lattice

/-!
# Support — Spans

The closed intervals between consecutive points of a walk up an order, and how many elements of a
list, each with a point of its own, fall into them.  Neighbouring intervals share their end.

* `spans`: the intervals.
* `countP_join`: two intervals that share an end.
* `sum_countP_spans`: over all intervals the elements are counted once, and once more for each end
  that they lie on and another interval begins with.
-/

namespace Support

variable {α κ : Type*} [LinearOrder κ]

/-- The intervals from `w` to the first point, and from each point to the next. -/
def spans : κ → List κ → List (κ × κ)
  | _, [] => []
  | w, u :: us => (w, u) :: spans u us

/-- The element is chosen, and its point lies in the interval. -/
def within (p : α → Bool) (point : α → κ) (w u : κ) (a : α) : Bool :=
  p a && decide (w ≤ point a ∧ point a ≤ u)

/-- The element is chosen, and this is its point. -/
def atPoint (p : α → Bool) (point : α → κ) (t : κ) (a : α) : Bool :=
  p a && decide (point a = t)

variable (p : α → Bool) (point : α → κ)

/-- **Two intervals** that share an end count what lies on it twice. -/
theorem countP_join {w t u : κ} (hwt : w ≤ t) (htu : t ≤ u) (xs : List α) :
    xs.countP (within p point w t) + xs.countP (within p point t u) =
      xs.countP (within p point w u) + xs.countP (atPoint p point t) := by
  have hone : ∀ a, (if within p point w t a then 1 else 0) + (if within p point t u a then 1 else 0) =
      (if within p point w u a then 1 else 0) + if atPoint p point t a then 1 else 0 := by
    intro a
    cases hp : p a with
    | false => simp [within, atPoint, hp]
    | true =>
        simp only [within, atPoint, hp, Bool.true_and, decide_eq_true_eq]
        rcases lt_trichotomy (point a) t with hlt | heq | hgt
        · simp [hlt.le, hlt.ne, not_le.mpr hlt, hlt.le.trans htu]
        · simp [heq, hwt, htu]
        · simp [hgt.le, hgt.ne', not_le.mpr hgt, hwt.trans hgt.le]
  induction xs with
  | nil => rfl
  | cons a xs ih =>
      simp only [List.countP_cons]
      have := hone a
      omega

/-- **Every interval of a walk** up to its last point. -/
theorem sum_countP_spans (xs : List α) (last : κ) {earlier : List κ} {w : κ}
    (h : (w :: (earlier ++ [last])).Pairwise (· ≤ ·)) :
    ((spans w (earlier ++ [last])).map fun s => xs.countP (within p point s.1 s.2)).sum =
      xs.countP (within p point w last) +
        (earlier.map fun t => xs.countP (atPoint p point t)).sum := by
  induction earlier generalizing w with
  | nil => simp [spans]
  | cons t earlier ih =>
      obtain ⟨hw, htail⟩ := List.pairwise_cons.mp h
      have hlast : t ≤ last := (List.pairwise_cons.mp htail).1 last (by simp)
      have hjoin := countP_join p point (hw t (by simp)) hlast xs
      simp only [List.cons_append, spans, List.map_cons, List.sum_cons, ih htail]
      omega

end Support
