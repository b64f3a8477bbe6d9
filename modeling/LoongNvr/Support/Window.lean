import Mathlib.Algebra.Order.Group.Unbundled.Int
import Mathlib.Data.List.Count
import Mathlib.Data.List.Pairwise

/-!
# Support — Window

How many of a list of times lie in a window, wherever the window is put; and gates that open for
some of the times at which they are polled.

* `WithinWindows n width times`: at most `n` of the times lie in each half-open window.
* `withinWindows_concat`: with one more time, the latest, it is the window that ends there that
  counts.
* `le_tdiv_iff`: a duration that is cut to whole units.
* `Paced d`: the gate opens exactly for the polls that come `d` after it last opened.
* `gate`: the answers of a gate that remembers when it opened last.
* `paced_gate`: a gate that waits for `d` is paced by it.
* `eq_of_paced`: no other is, over all sequences of polls.
-/

namespace Support

/-- A duration that is cut to whole units is still as long as so many of them if it was before. -/
theorem le_tdiv_iff {n unit d : ℤ} (hn : 0 < n) (hunit : 0 < unit) :
    n ≤ d.tdiv unit ↔ n * unit ≤ d := by
  rcases lt_or_ge d 0 with hneg | hpos
  · have hdiv : d.tdiv unit ≤ (0 : ℤ).tdiv unit := Int.tdiv_le_tdiv hunit hneg.le
    rw [Int.zero_tdiv] at hdiv
    have hmul : 0 < n * unit := Int.mul_pos hn hunit
    constructor <;> omega
  · rw [Int.tdiv_eq_ediv_of_nonneg hpos, Int.le_ediv_iff_mul_le hunit]

/-- At most `n` of the times lie in a half-open window of the width, wherever it starts. -/
def WithinWindows (n : ℕ) (width : ℤ) (times : List ℤ) : Prop :=
  ∀ start, times.countP (fun t => start ≤ t ∧ t < start + width) ≤ n

variable {n : ℕ} {width now : ℤ} {times : List ℤ}

theorem withinWindows_nil : WithinWindows n width [] := fun _ => Nat.zero_le _

/-- The window that ends with the latest time. -/
theorem countP_last (hlast : ∀ t ∈ times, t ≤ now) :
    times.countP (fun t => now - width + 1 ≤ t ∧ t < now - width + 1 + width) =
      times.countP (now - width < ·) := by
  refine List.countP_congr fun t ht => ?_
  have := hlast t ht
  simp only [decide_eq_true_eq]
  omega

/-- **One more time**, the latest: of the windows that hold it, the one that ends there has the most
times in it. -/
theorem withinWindows_concat (hlast : ∀ t ∈ times, t ≤ now) :
    WithinWindows n width (times ++ [now]) ↔
      WithinWindows n width times ∧ (times ++ [now]).countP (now - width < ·) ≤ n := by
  have hlast' : ∀ t ∈ times ++ [now], t ≤ now := by
    intro t ht
    rcases List.mem_append.mp ht with ht | ht
    · exact hlast t ht
    · exact (List.mem_singleton.mp ht).le
  constructor
  · intro h
    refine ⟨fun start => ?_, countP_last hlast' ▸ h (now - width + 1)⟩
    exact ((List.sublist_append_left times [now]).countP_le).trans (h start)
  · rintro ⟨h, hend⟩ start
    by_cases hin : start ≤ now ∧ now < start + width
    · refine (List.countP_mono_left fun t _ ht => ?_).trans hend
      simp only [decide_eq_true_eq] at ht ⊢
      omega
    · rw [List.countP_append, List.countP_singleton, if_neg (by simpa using hin), Nat.add_zero]
      exact h start

end Support

/-! ### Gates that are polled

A gate that is polled: it opens for a poll or it does not, by how long ago it opened last.
-/

namespace Support

/-- Each poll with its answer, after the gate last opened, if it did: the gate opens exactly for a
poll that comes `d` after that. -/
def Paced (d : ℤ) : Option ℤ → List (ℤ × Bool) → Prop
  | _, [] => True
  | none, (t, opened) :: polls => Paced d (if opened then some t else none) polls
  | some last, (t, opened) :: polls =>
      (opened = true ↔ d ≤ t - last) ∧ Paced d (some (if opened then t else last)) polls

/-- The answers of a gate, by when it opened last and which polls it opens for. -/
def gate (opens : ℤ → ℤ → Bool) : ℤ → List ℤ → List (ℤ × Bool)
  | _, [] => []
  | last, t :: times =>
      (t, opens last t) :: gate opens (if opens last t then t else last) times

variable {d p : ℤ} {opens : ℤ → ℤ → Bool} {last : ℤ} {times : List ℤ}

/-- What is paced from the last opening on is paced from the first one here on. -/
theorem Paced.forget {polls : List (ℤ × Bool)} (h : Paced d (some last) polls) :
    Paced d none polls := by
  induction polls generalizing last with
  | nil => trivial
  | cons poll polls ih =>
      obtain ⟨t, opened⟩ := poll
      cases opened with
      | true => exact h.2
      | false => exact ih h.2

/-- **A gate that waits for `d`.** -/
theorem paced_gate (hopens : ∀ last t, last ≤ t → (opens last t = true ↔ d ≤ t - last))
    (htimes : (last :: times).Pairwise (· ≤ ·)) : Paced d (some last) (gate opens last times) := by
  induction times generalizing last with
  | nil => trivial
  | cons t times ih =>
      obtain ⟨hlast, hrest⟩ := List.pairwise_cons.mp htimes
      refine ⟨hopens last t (hlast t List.mem_cons_self), ih ?_⟩
      split
      · exact hrest
      · obtain ⟨-, hlater⟩ := List.pairwise_cons.mp hrest
        have hfirst : ∀ u ∈ times, last ≤ u := fun u hu => hlast u (List.mem_cons_of_mem t hu)
        exact List.pairwise_cons.mpr ⟨hfirst, hlater⟩

/-- **Only a gate that waits for `d`** is paced by it: one that opens, and is polled again after the
shorter of what it waits for and `d`, tells them apart. -/
theorem eq_of_paced (hd : 0 ≤ d) (hp : 0 ≤ p)
    (hopens : ∀ last t, last ≤ t → (opens last t = true ↔ p ≤ t - last)) (last : ℤ)
    (hpaced : ∀ times, (last :: times).Pairwise (· ≤ ·) → Paced d none (gate opens last times)) :
    p = d := by
  have hfirst : last ≤ last + p := Int.le_add_of_nonneg_right hp
  have hnext : last + p ≤ last + p + min p d := Int.le_add_of_nonneg_right (le_min hp hd)
  have htimes : [last, last + p, last + p + min p d].Pairwise (· ≤ ·) := by
    simp [hfirst, hnext, hfirst.trans hnext]
  have hopen : opens last (last + p) = true :=
    (hopens last _ hfirst).mpr (by rw [add_sub_cancel_left])
  have htwice := hpaced _ htimes
  simp only [gate, hopen, if_true, Paced] at htwice
  obtain ⟨hsecond, -⟩ := htwice
  rw [hopens _ _ hnext, add_sub_cancel_left, le_min_iff, le_min_iff] at hsecond
  rcases le_total p d with hle | hle
  · exact le_antisymm hle (hsecond.mp ⟨le_rfl, hle⟩).1
  · exact le_antisymm (hsecond.mpr ⟨hle, le_rfl⟩).2 hle

end Support
