import Mathlib.Algebra.Group.Nat.Defs
import Mathlib.Data.List.Basic
import Mathlib.Data.Int.Order.Basic

/-!
# Support — Decimal

Integers in decimal as a stream writes them, filled up to a width with zeros on the left, before a
sign too.

* `padded_injective`: the number can be read back, whatever the width.
* `length_padded`: numbers that fit have the width.
* `append_cons_inj`: texts in which a character is the last of its kind are split there.
-/

namespace Support

/-- The number in decimal. -/
def decimal (n : ℤ) : List Char :=
  if n < 0 then '-' :: Nat.toDigits 10 n.natAbs else Nat.toDigits 10 n.natAbs

/-- `std::setfill('0') << std::setw(width) << n` -/
def padded (width : ℕ) (n : ℤ) : List Char :=
  List.replicate (width - (decimal n).length) '0' ++ decimal n

theorem isDigit_zero : '0'.isDigit = true := rfl

theorem isDigit_of_mem_toDigits {n : ℕ} {c : Char} (h : c ∈ Nat.toDigits 10 n) :
    c.isDigit = true :=
  Nat.isDigit_of_mem_toDigits (by decide) (by decide) h

/-- Only digits and a sign are written. -/
theorem mem_padded {width : ℕ} {n : ℤ} {c : Char} (h : c ∈ padded width n) :
    c.isDigit = true ∨ c = '-' := by
  rcases List.mem_append.mp h with hzero | hdigits
  · obtain rfl := List.eq_of_mem_replicate hzero
    exact .inl isDigit_zero
  · rw [decimal] at hdigits
    split at hdigits
    · rcases List.mem_cons.mp hdigits with rfl | hdigit
      · exact .inr rfl
      · exact .inl (isDigit_of_mem_toDigits hdigit)
    · exact .inl (isDigit_of_mem_toDigits hdigits)

theorem not_mem_padded {width : ℕ} {n : ℤ} {c : Char} (hdigit : c.isDigit = false)
    (hsign : c ≠ '-') : c ∉ padded width n := fun h =>
  (mem_padded h).elim (fun h => absurd (hdigit.symm.trans h) Bool.false_ne_true) hsign

theorem sign_mem_padded {width : ℕ} {n : ℤ} : '-' ∈ padded width n ↔ n < 0 := by
  constructor
  · intro h
    by_contra hn
    rw [padded, decimal, if_neg hn] at h
    rcases List.mem_append.mp h with hzero | hdigits
    · exact absurd (List.eq_of_mem_replicate hzero) (by decide)
    · exact absurd (isDigit_of_mem_toDigits hdigits) (by decide)
  · intro hn
    rw [padded, decimal, if_pos hn]
    exact List.mem_append_right _ List.mem_cons_self

/-- The digits, read back. -/
theorem ofDigitChars_padded (width : ℕ) (n : ℤ) :
    Nat.ofDigitChars 10 ((padded width n).filter (· ≠ '-')) 0 = n.natAbs := by
  have hzeros : ∀ k, (List.replicate k '0').filter (· ≠ '-') = List.replicate k '0' := by
    intro k
    refine List.filter_eq_self.mpr fun c hc => ?_
    rw [List.eq_of_mem_replicate hc]
    rfl
  have hdigits : (Nat.toDigits 10 n.natAbs).filter (· ≠ '-') = Nat.toDigits 10 n.natAbs := by
    refine List.filter_eq_self.mpr fun c hc => ?_
    rw [decide_eq_true_eq]
    rintro rfl
    exact absurd (isDigit_of_mem_toDigits hc) (by decide)
  have hdecimal : (decimal n).filter (· ≠ '-') = Nat.toDigits 10 n.natAbs := by
    rw [decimal]
    split
    · exact (List.filter_cons_of_neg (by decide)).trans hdigits
    · exact hdigits
  rw [padded, List.filter_append, hzeros, hdecimal, Nat.ofDigitChars_append,
    Nat.ofDigitChars_replicate_zero, Nat.mul_zero, Nat.ofDigitChars_ten_toDigits]

/-- **A padded number can be read back**: its sign is there or not, and its digits. -/
theorem padded_injective (width : ℕ) : Function.Injective (padded width) := by
  intro m n h
  have habs : m.natAbs = n.natAbs := by
    rw [← ofDigitChars_padded width m, ← ofDigitChars_padded width n, h]
  have hsign : m < 0 ↔ n < 0 := by
    rw [← @sign_mem_padded width, h, sign_mem_padded]
  omega

/-- A number that fits has the width. -/
theorem length_padded {width n : ℕ} (hwidth : 0 < width) (h : n < 10 ^ width) :
    (padded width n).length = width := by
  have hdecimal : decimal n = Nat.toDigits 10 n := by
    rw [decimal, if_neg (Int.not_lt.mpr (Int.natCast_nonneg n)), Int.natAbs_natCast]
  have hfits : (Nat.toDigits 10 n).length ≤ width :=
    (Nat.length_toDigits_le_iff (by decide) hwidth).mpr h
  rw [padded, hdecimal, List.length_append, List.length_replicate, Nat.sub_add_cancel hfits]

/-- Two texts are equal up to and from the last character of a kind. -/
theorem append_cons_inj {α : Type*} {a : α} {front front' rest rest' : List α}
    (h : front ++ a :: rest = front' ++ a :: rest') (hrest : a ∉ rest) (hrest' : a ∉ rest') :
    front = front' ∧ rest = rest' := by
  rcases List.append_eq_append_iff.mp h with ⟨more, rfl, hmore⟩ | ⟨more, rfl, hmore⟩
  · cases more with
    | nil => exact ⟨(List.append_nil _).symm, (List.cons.inj hmore).2⟩
    | cons x more =>
        have heq := (List.cons.inj hmore).2
        exact absurd (heq ▸ by simp) hrest
  · cases more with
    | nil => exact ⟨List.append_nil _, (List.cons.inj hmore).2.symm⟩
    | cons x more =>
        have heq := (List.cons.inj hmore).2
        exact absurd (heq ▸ by simp) hrest'

end Support
