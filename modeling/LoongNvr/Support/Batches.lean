import Mathlib.Order.Lattice
import Mathlib.Algebra.BigOperators.Group.List.Basic
import Mathlib.Data.List.Basic
import Mathlib.Data.Nat.Find
import Mathlib.Tactic.Abel

/-!
# Support — Batches

Taking elements off the front of a list, `b` at a time, until a total that each of them lowers by
its weight is at or below a target.

* `taken`: how many are taken.
* `remaining`: the total once the first so many are taken.
* `fewest`: the least number that would do, all of them if none does.
* `taken_spec`: only batch boundaries are looked at.
* `overshoot_iff`: no element is taken too many exactly if the least number is a boundary.
-/

namespace Support.Batches

variable {α κ : Type*} [AddCommGroup κ] [LinearOrder κ]

/-- How many elements are taken, in at most `fuel` batches. -/
def taken (b : ℕ) (target : κ) (weight : α → κ) : ℕ → List α → κ → ℕ
  | 0, _, _ => 0
  | fuel + 1, xs, total =>
      if target < total ∧ xs ≠ [] then
        (xs.take b).length +
          taken b target weight fuel (xs.drop b) (total - ((xs.take b).map weight).sum)
      else 0

/-- The total once the first `k` elements are taken. -/
def remaining (weight : α → κ) (xs : List α) (total : κ) (k : ℕ) : κ :=
  total - ((xs.take k).map weight).sum

/-- The least number of elements to take, all of them if no number does. -/
def fewest (target : κ) (weight : α → κ) (xs : List α) (total : κ) : ℕ :=
  Nat.find (p := fun k => k = xs.length ∨ remaining weight xs total k ≤ target) ⟨_, .inl rfl⟩

variable {b : ℕ} {target : κ} {weight : α → κ}

omit [LinearOrder κ] in
@[simp] theorem remaining_zero (xs : List α) (total : κ) : remaining weight xs total 0 = total := by
  simp [remaining]

omit [LinearOrder κ] in
theorem remaining_drop (xs : List α) (total : κ) (k : ℕ) :
    remaining weight (xs.drop b) (remaining weight xs total b) k =
      remaining weight xs total (b + k) := by
  simp only [remaining, List.take_add, List.map_append, List.sum_append]
  abel

/-- A batch and then `k` more. -/
theorem take_taken (xs : List α) (k : ℕ) :
    xs.take ((xs.take b).length + k) = xs.take b ++ (xs.drop b).take k := by
  calc xs.take ((xs.take b).length + k)
      = (xs.take b ++ xs.drop b).take ((xs.take b).length + k) := by rw [List.take_append_drop]
    _ = xs.take b ++ (xs.drop b).take k := List.take_length_add_append k

/-! ### The least number -/

theorem fewest_le (xs : List α) (total : κ) : fewest target weight xs total ≤ xs.length :=
  Nat.find_min' _ (.inl rfl)

/-- The least number does, unless it is all there is. -/
theorem fewest_spec (xs : List α) (total : κ) :
    fewest target weight xs total = xs.length ∨
      remaining weight xs total (fewest target weight xs total) ≤ target :=
  Nat.find_spec (p := fun k => k = xs.length ∨ remaining weight xs total k ≤ target) ⟨_, .inl rfl⟩

/-- **No smaller number does.** -/
theorem fewest_min {xs : List α} {total : κ} {k : ℕ} (hk : k < fewest target weight xs total) :
    target < remaining weight xs total k :=
  not_le.mp (not_or.mp (Nat.find_min _ hk)).2

theorem fewest_le_of {xs : List α} {total : κ} {k : ℕ}
    (hk : remaining weight xs total k ≤ target) : fewest target weight xs total ≤ k :=
  Nat.find_min' _ (.inr hk)

/-! ### What is taken -/

/-- What a pass takes: whole batches or everything, as long as the total at the boundaries is above
the target, and until it is not or nothing is left. -/
structure Taken (b : ℕ) (target : κ) (weight : α → κ) (xs : List α) (total : κ) (d : ℕ) : Prop where
  le : d ≤ xs.length
  boundary : b ∣ d ∨ d = xs.length
  above : ∀ k < d, b ∣ k → target < remaining weight xs total k
  done : d = xs.length ∨ remaining weight xs total d ≤ target

/-- One batch more at the front. -/
theorem Taken.cons {xs : List α} {total : κ} {d : ℕ} (htotal : target < total)
    (h : Taken b target weight (xs.drop b) (remaining weight xs total b) d) :
    Taken b target weight xs total ((xs.take b).length + d) := by
  obtain ⟨hle, hboundary, habove, hdone⟩ := h
  rw [List.length_drop] at hle hboundary hdone
  rw [List.length_take]
  rcases Nat.lt_or_ge xs.length b with hshort | hlong
  · -- the batch is everything
    have hd : d = 0 := by omega
    rw [Nat.min_eq_right hshort.le, hd, Nat.add_zero]
    refine ⟨le_rfl, .inr rfl, fun k hk hdvd => ?_, .inl rfl⟩
    have hzero : k = 0 := Nat.eq_zero_of_dvd_of_lt hdvd (hk.trans hshort)
    rwa [hzero, remaining_zero]
  · rw [Nat.min_eq_left hlong]
    refine ⟨by omega, ?_, fun k hk hdvd => ?_, ?_⟩
    · exact hboundary.imp (Nat.dvd_add (Nat.dvd_refl b)) (by omega)
    · rcases Nat.lt_or_ge k b with hlow | hhigh
      · have hzero : k = 0 := Nat.eq_zero_of_dvd_of_lt hdvd hlow
        rwa [hzero, remaining_zero]
      · -- a later boundary is one of the pass over the rest
        obtain ⟨j, rfl⟩ := Nat.exists_eq_add_of_le hhigh
        rw [← remaining_drop]
        exact habove j (by omega) ((Nat.dvd_add_iff_right (Nat.dvd_refl b)).mpr hdvd)
    · rw [← remaining_drop]
      exact hdone.imp_left (by omega)

/-- **Only batch boundaries are looked at.** -/
theorem taken_spec (hb : 0 < b) {fuel : ℕ} {xs : List α} (hfuel : xs.length ≤ fuel) (total : κ) :
    Taken b target weight xs total (taken b target weight fuel xs total) := by
  induction fuel generalizing xs total with
  | zero =>
      obtain rfl := List.length_eq_zero_iff.mp (Nat.le_zero.mp hfuel)
      exact ⟨le_rfl, .inr rfl, fun k hk => absurd hk (Nat.not_lt_zero k), .inl rfl⟩
  | succ fuel ih =>
      simp only [taken]
      split
      · rename_i h
        refine Taken.cons h.1 (ih ?_ _)
        have := List.length_pos_iff.mpr h.2
        rw [List.length_drop]
        omega
      · rename_i h
        refine ⟨Nat.zero_le _, .inl (Nat.dvd_zero b), fun k hk => absurd hk (Nat.not_lt_zero k), ?_⟩
        rw [remaining_zero]
        rcases eq_or_ne xs [] with rfl | hne
        · exact .inl rfl
        · exact .inr (not_lt.mp fun hlt => h ⟨hlt, hne⟩)

/-! ### Taking too many -/

variable {xs : List α} {total : κ} {d : ℕ}

theorem Taken.fewest_le (h : Taken b target weight xs total d) :
    fewest target weight xs total ≤ d := by
  rcases h.done with rfl | hdone
  · exact Batches.fewest_le xs total
  · exact fewest_le_of hdone

/-- If the least number is a boundary, it is what is taken. -/
theorem Taken.eq_fewest (h : Taken b target weight xs total d)
    (hfewest : b ∣ fewest target weight xs total ∨ fewest target weight xs total = xs.length) :
    d = fewest target weight xs total := by
  refine (h.fewest_le.antisymm ?_).symm
  by_contra hlt
  rw [not_le] at hlt
  have hne : fewest target weight xs total ≠ xs.length := by
    have := h.le
    omega
  have hdvd := hfewest.resolve_right hne
  exact absurd ((fewest_spec xs total).resolve_left hne) (not_le.mpr (h.above _ hlt hdvd))

/-- **No element is taken too many exactly if the least number is a boundary.** -/
theorem Taken.overshoot_iff (h : Taken b target weight xs total d) :
    (∀ k < d, target < remaining weight xs total k) ↔
      b ∣ fewest target weight xs total ∨ fewest target weight xs total = xs.length := by
  constructor
  · intro hall
    have hd : d ≤ fewest target weight xs total := by
      have hspec : fewest target weight xs total = xs.length ∨
          remaining weight xs total (fewest target weight xs total) ≤ target := fewest_spec xs total
      rcases hspec with hlen | hdone
      · exact hlen ▸ h.le
      · exact not_lt.mp fun hlt => absurd hdone (not_le.mpr (hall _ hlt))
    rw [← h.fewest_le.antisymm' hd]
    exact h.boundary
  · intro hfewest k hk
    rw [h.eq_fewest hfewest] at hk
    exact fewest_min hk

end Support.Batches
