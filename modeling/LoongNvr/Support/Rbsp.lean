import Mathlib.Data.List.Basic
import Mathlib.Data.Nat.Init
import Mathlib.Tactic.TypeStar

/-!
# Support — Rbsp

Emulation prevention: in a NAL unit no start code may stand, so the payload is written with a byte
3 between two zeros and a byte up to 3.

* `escape`, `unescape`: the payload with these bytes put in, and with them left out.
* `unescape_escape`: the payload comes back.
* `escape_take_eq_iff`: when the escaped payload begins with the payload but for its first byte.
-/

namespace Rbsp

/-- The rest of a payload, escaped, behind some zeros. -/
def escapeFrom : ℕ → List UInt8 → List UInt8
  | _, [] => []
  | zeros, b :: bs =>
      if 2 ≤ zeros ∧ b ≤ 3 then 3 :: b :: escapeFrom (if b = 0 then 1 else 0) bs
      else b :: escapeFrom (if b = 0 then zeros + 1 else 0) bs

def escape (bs : List UInt8) : List UInt8 := escapeFrom 0 bs

def unescapeFrom : ℕ → List UInt8 → List UInt8
  | _, [] => []
  | zeros, b :: bs =>
      if 2 ≤ zeros ∧ b = 3 then unescapeFrom 0 bs
      else b :: unescapeFrom (if b = 0 then zeros + 1 else 0) bs

def unescape (bs : List UInt8) : List UInt8 := unescapeFrom 0 bs

theorem unescapeFrom_escapeFrom (zeros : ℕ) (bs : List UInt8) :
    unescapeFrom zeros (escapeFrom zeros bs) = bs := by
  induction bs generalizing zeros with
  | nil => rfl
  | cons b bs ih =>
      by_cases e : 2 ≤ zeros ∧ b ≤ 3
      · -- the byte that was put in is left out, and the count starts again
        rw [escapeFrom, if_pos e, unescapeFrom, if_pos ⟨e.1, rfl⟩, unescapeFrom,
          if_neg (by simp)]
        simp only [Nat.zero_add, ih]
      · have hkept : ¬ (2 ≤ zeros ∧ b = 3) := fun h => e ⟨h.1, by simp [h.2]⟩
        rw [escapeFrom, if_neg e, unescapeFrom, if_neg hkept, ih]

/-- **The payload comes back.** -/
theorem unescape_escape (bs : List UInt8) : unescape (escape bs) = bs :=
  unescapeFrom_escapeFrom 0 bs

theorem length_le_escapeFrom (zeros : ℕ) (bs : List UInt8) :
    bs.length ≤ (escapeFrom zeros bs).length := by
  induction bs generalizing zeros with
  | nil => exact Nat.zero_le _
  | cons b bs ih =>
      rw [escapeFrom]
      split
      · exact Nat.succ_le_succ (Nat.le_trans (ih _) (Nat.le_succ _))
      · exact Nat.succ_le_succ (ih _)

/-- Two zeros and a byte up to 3 make it longer. -/
theorem length_lt_escape (a : UInt8) {c : UInt8} (bs : List UInt8) (hc : c ≤ 3) :
    (a :: 0 :: 0 :: c :: bs).length < (escape (a :: 0 :: 0 :: c :: bs)).length := by
  by_cases ha : a = 0
  · have hescape : escape (a :: 0 :: 0 :: c :: bs) = 0 :: 0 :: 3 :: 0 :: escapeFrom 1 (c :: bs) := by
      simp [escape, escapeFrom, ha]
    have hrest := length_le_escapeFrom 1 (c :: bs)
    simp only [hescape, List.length_cons] at hrest ⊢
    omega
  · have hescape : escape (a :: 0 :: 0 :: c :: bs) =
        a :: 0 :: 0 :: 3 :: c :: escapeFrom (if c = 0 then 1 else 0) bs := by
      simp [escape, escapeFrom, ha, hc]
    have hrest := length_le_escapeFrom (if c = 0 then 1 else 0) bs
    simp only [hescape, List.length_cons]
    omega

/-! ### A payload that is its own beginning -/

theorem escapeFrom_of_ne_zero {zeros : ℕ} {b : UInt8} {bs : List UInt8} (hz : zeros < 2)
    (hb : b ≠ 0) : escapeFrom zeros (b :: bs) = b :: escapeFrom 0 bs := by
  rw [escapeFrom, if_neg (by omega), if_neg hb]

/-- Behind a byte that is not zero, only more of it. -/
theorem escape_take_eq_of_ne_zero {b : UInt8} {bs : List UInt8} {n : ℕ} (hb : b ≠ 0)
    (hn : n ≤ bs.length) :
    (escape (b :: bs)).take n = bs.take n ↔ bs.take n = List.replicate n b := by
  induction n generalizing bs with
  | zero => simp
  | succ n ih =>
      obtain ⟨c, bs, rfl⟩ : ∃ c cs, bs = c :: cs := List.exists_cons_of_length_pos (by omega)
      rw [escape, escapeFrom_of_ne_zero (by decide) hb]
      simp only [List.take_succ_cons, List.replicate_succ, List.cons.injEq]
      constructor
      · rintro ⟨rfl, h⟩
        exact ⟨rfl, (ih (Nat.le_of_succ_le_succ hn)).mp h⟩
      · rintro ⟨rfl, h⟩
        exact ⟨rfl, (ih (Nat.le_of_succ_le_succ hn)).mpr h⟩

/-- 3, 0, 3, 0, … -/
def zigzag : ℕ → List UInt8
  | 0 => []
  | 1 => [3]
  | n + 2 => 3 :: 0 :: zigzag n

/-- Single zeros need no escape. -/
theorem escapeFrom_three_zero (bs : List UInt8) :
    escapeFrom 1 (3 :: 0 :: bs) = 3 :: 0 :: escapeFrom 1 bs := by
  rw [escapeFrom_of_ne_zero (by decide) (by decide), escapeFrom, if_neg (by decide), if_pos rfl]

theorem escapeFrom_take_eq_zigzag {bs : List UInt8} {n : ℕ} (hn : n ≤ bs.length) :
    (escapeFrom 1 (3 :: 0 :: bs)).take n = bs.take n ↔ bs.take n = zigzag n := by
  induction n using Nat.twoStepInduction generalizing bs with
  | zero => simp [zigzag]
  | one =>
      obtain ⟨b, bs, rfl⟩ := List.exists_cons_of_length_pos hn
      simp [escapeFrom_three_zero, zigzag, eq_comm]
  | more n ih _ =>
      obtain ⟨b, c, bs, rfl⟩ : ∃ b c cs, bs = b :: c :: cs := by
        obtain ⟨b, bs, rfl⟩ := List.exists_cons_of_length_pos (l := bs) (by omega)
        obtain ⟨c, bs, rfl⟩ := List.exists_cons_of_length_pos (l := bs)
          (by simp only [List.length_cons] at hn; omega)
        exact ⟨b, c, bs, rfl⟩
      have hrest : n ≤ bs.length := by simpa using hn
      rw [escapeFrom_three_zero]
      simp only [List.take_succ_cons, zigzag, List.cons.injEq]
      constructor
      · rintro ⟨rfl, rfl, h⟩
        exact ⟨rfl, rfl, (ih hrest).mp h⟩
      · rintro ⟨rfl, rfl, h⟩
        exact ⟨rfl, rfl, (ih hrest).mpr h⟩

/-- Behind a zero, the byte that is put in sets the pattern. -/
theorem escape_take_eq_of_zero {a b c d : UInt8} {bs : List UInt8} {n : ℕ} (hn : n ≤ bs.length) :
    (escape (0 :: a :: b :: c :: d :: bs)).take (n + 4) = (a :: b :: c :: d :: bs).take (n + 4) ↔
      a :: b :: c :: d :: bs.take n = 0 :: 0 :: 3 :: 0 :: zigzag n := by
  have hescape : escape (0 :: 0 :: 0 :: c :: d :: bs) =
      0 :: 0 :: 3 :: 0 :: escapeFrom 1 (c :: d :: bs) := by
    simp [escape, escapeFrom]
  constructor
  · intro h
    obtain ⟨rfl, htail⟩ : 0 = a ∧ (escapeFrom 1 (a :: b :: c :: d :: bs)).take (n + 3) =
        (b :: c :: d :: bs).take (n + 3) := by
      simpa [escape, escapeFrom] using h
    obtain ⟨rfl, -⟩ : 0 = b ∧ (escapeFrom 2 (b :: c :: d :: bs)).take (n + 2) =
        (c :: d :: bs).take (n + 2) := by
      simpa [escapeFrom] using htail
    rw [hescape] at h
    simp only [List.take_succ_cons, List.cons.injEq, true_and] at h
    obtain ⟨rfl, rfl, hrest⟩ := h
    rw [(escapeFrom_take_eq_zigzag hn).mp hrest]
  · intro h
    simp only [List.cons.injEq] at h
    obtain ⟨rfl, rfl, rfl, rfl, h⟩ := h
    rw [hescape]
    simp only [List.take_succ_cons, List.cons.injEq, true_and]
    exact (escapeFrom_take_eq_zigzag hn).mpr h

/-- **A payload that is its own beginning**: an escaped payload begins with the bytes that follow the
payload's first one exactly when these are all that byte, or the pattern that an escape makes. -/
theorem escape_take_eq_iff {bs : List UInt8} {n : ℕ} (hn : n + 5 ≤ bs.length) :
    (escape bs).take (n + 4) = (bs.drop 1).take (n + 4) ↔
      (∃ b, b ≠ 0 ∧ bs.take (n + 5) = List.replicate (n + 5) b) ∨
        bs.take (n + 5) = 0 :: 0 :: 0 :: 3 :: 0 :: zigzag n := by
  obtain ⟨b, bs, rfl⟩ := List.exists_cons_of_length_pos (l := bs) (by omega)
  rw [List.length_cons] at hn
  simp only [List.drop_succ_cons, List.drop_zero, List.take_succ_cons]
  by_cases hb : b = 0
  · subst hb
    obtain ⟨a, c, d, e, rest, rfl⟩ : ∃ a c d e rest, bs = a :: c :: d :: e :: rest := by
      match bs, hn with
      | a :: c :: d :: e :: rest, _ => exact ⟨a, c, d, e, rest, rfl⟩
    rw [escape_take_eq_of_zero (by simpa using hn)]
    simp [List.replicate_succ]
  · rw [escape_take_eq_of_ne_zero hb (by omega)]
    constructor
    · intro h
      exact .inl ⟨b, hb, by rw [h, ← List.replicate_succ]⟩
    · rintro (⟨c, -, h⟩ | h)
      · rw [List.replicate_succ, List.cons.injEq] at h
        rw [h.2, h.1]
      · exact absurd (List.cons.inj h).1 hb

end Rbsp
