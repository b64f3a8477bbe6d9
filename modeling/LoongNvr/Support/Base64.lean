import Mathlib.Data.List.Basic
import Mathlib.Data.Nat.Bitwise
import Mathlib.Tactic.NormNum

/-!
# Support — Base64

Bytes written three at a time as four digits of six bits, over any alphabet.  The last group may
be short: one byte is two digits, two bytes are three.  The decoder reads whole groups of four, in
which a padding character stands for a missing digit.

* `encode`, `pad`, `decode`: the three functions.
* `decode_pad_encode`: decoding gives back what was encoded.
-/

namespace Support.Base64

/-- Three bytes as one number. -/
def triple (a b c : UInt8) : ℕ := a.toNat <<< 16 ||| b.toNat <<< 8 ||| c.toNat

/-- Bytes as digits of the alphabet, without padding. -/
def encode {δ : Type*} (digit : ℕ → δ) : List UInt8 → List δ
  | a :: b :: c :: rest =>
      let t := triple a b c
      digit (t >>> 18 &&& 63) :: digit (t >>> 12 &&& 63) :: digit (t >>> 6 &&& 63) ::
        digit (t &&& 63) :: encode digit rest
  | [a, b] =>
      let t := triple a b 0
      [digit (t >>> 18 &&& 63), digit (t >>> 12 &&& 63), digit (t >>> 6 &&& 63)]
  | [a] =>
      let t := triple a 0 0
      [digit (t >>> 18 &&& 63), digit (t >>> 12 &&& 63)]
  | [] => []

variable {δ : Type*}

/-- Padding up to a multiple of four. -/
def pad (padding : δ) (s : List δ) : List δ := s ++ List.replicate ((4 - s.length % 4) % 4) padding

/-- Four digits as one number. -/
def quad (a b c d : ℕ) : ℕ := a <<< 18 ||| b <<< 12 ||| c <<< 6 ||| d

/-- The bytes of groups of four digits. -/
def decode [DecidableEq δ] (value : δ → ℕ) (padding : δ) : List δ → List UInt8
  | a :: b :: c :: d :: rest =>
      let t := quad (value a) (value b) (value c) (value d)
      UInt8.ofNat (t >>> 16) ::
        ((if c = padding then [] else [UInt8.ofNat (t >>> 8)]) ++
          (if d = padding then [] else [UInt8.ofNat t]) ++ decode value padding rest)
  | _ => []

/-! ### Numbers -/

theorem triple_eq (a b c : UInt8) : triple a b c = a.toNat * 65536 + (b.toNat * 256 + c.toNat) := by
  have hc : c.toNat < 2 ^ 8 := c.toNat_lt
  have hb : b.toNat <<< 8 + c.toNat < 2 ^ 16 := by
    have := b.toNat_lt
    rw [Nat.shiftLeft_eq]
    omega
  rw [triple, Nat.or_assoc, ← Nat.shiftLeft_add_eq_or_of_lt hc, ← Nat.shiftLeft_add_eq_or_of_lt hb]
  simp only [Nat.shiftLeft_eq, Nat.reducePow]

theorem quad_eq {a b c d : ℕ} (hb : b < 64) (hc : c < 64) (hd : d < 64) :
    quad a b c d = a * 262144 + (b * 4096 + (c * 64 + d)) := by
  have hcd : c <<< 6 + d < 2 ^ 12 := by
    rw [Nat.shiftLeft_eq]
    omega
  have hbcd : b <<< 12 + (c <<< 6 + d) < 2 ^ 18 := by
    simp only [Nat.shiftLeft_eq]
    omega
  have hd : d < 2 ^ 6 := hd
  rw [quad, Nat.or_assoc, Nat.or_assoc, ← Nat.shiftLeft_add_eq_or_of_lt hd,
    ← Nat.shiftLeft_add_eq_or_of_lt hcd, ← Nat.shiftLeft_add_eq_or_of_lt hbcd]
  simp only [Nat.shiftLeft_eq, Nat.reducePow]

theorem and_63 (n : ℕ) : n &&& 63 = n % 64 := Nat.and_two_pow_sub_one_eq_mod n 6

/-- The digits of a number below `2 ^ 24` make it up again. -/
theorem quad_digits {t : ℕ} (h : t < 16777216) :
    quad (t >>> 18 &&& 63) (t >>> 12 &&& 63) (t >>> 6 &&& 63) (t &&& 63) = t := by
  simp only [and_63]
  rw [quad_eq (Nat.mod_lt _ (by decide)) (Nat.mod_lt _ (by decide)) (Nat.mod_lt _ (by decide))]
  simp only [Nat.shiftRight_eq_div_pow, Nat.reducePow]
  omega

theorem and_63_lt (n : ℕ) : n &&& 63 < 64 := Nat.lt_of_le_of_lt Nat.and_le_right (by decide)

theorem triple_lt (a b c : UInt8) : triple a b c < 16777216 := by
  have := a.toNat_lt
  have := b.toNat_lt
  have := c.toNat_lt
  rw [triple_eq]
  omega

theorem triple_fst (a b c : UInt8) : UInt8.ofNat (triple a b c >>> 16) = a := by
  have hb := b.toNat_lt
  have hc := c.toNat_lt
  have hdiv : triple a b c >>> 16 = a.toNat := by
    rw [triple_eq, Nat.shiftRight_eq_div_pow]
    omega
  rw [hdiv, UInt8.ofNat_toNat]

theorem triple_snd (a b c : UInt8) : UInt8.ofNat (triple a b c >>> 8) = b := by
  have hb := b.toNat_lt
  have hc := c.toNat_lt
  have hdiv : triple a b c >>> 8 = a.toNat * 256 + b.toNat := by
    rw [triple_eq, Nat.shiftRight_eq_div_pow]
    omega
  apply UInt8.toNat_inj.mp
  rw [hdiv, UInt8.toNat_ofNat']
  omega

theorem triple_trd (a b c : UInt8) : UInt8.ofNat (triple a b c) = c := by
  have hc := c.toNat_lt
  apply UInt8.toNat_inj.mp
  rw [triple_eq, UInt8.toNat_ofNat']
  omega

/-! ### Digits -/

theorem map_encode {ε : Type*} (f : δ → ε) (digit : ℕ → δ) (bs : List UInt8) :
    (encode digit bs).map f = encode (f ∘ digit) bs := by
  induction bs using encode.induct with
  | case1 a b c rest ih => simp only [encode, List.map_cons, ih, Function.comp_apply]
  | case2 | case3 | case4 => rfl

theorem mem_encode {digit : ℕ → δ} {x : δ} {bs : List UInt8} (h : x ∈ encode digit bs) :
    ∃ n < 64, digit n = x := by
  induction bs using encode.induct with
  | case1 a b c rest ih =>
      simp only [encode, List.mem_cons] at h
      rcases h with h | h | h | h | h
      · exact ⟨_, and_63_lt _, h.symm⟩
      · exact ⟨_, and_63_lt _, h.symm⟩
      · exact ⟨_, and_63_lt _, h.symm⟩
      · exact ⟨_, and_63_lt _, h.symm⟩
      · exact ih h
  | case2 a b =>
      simp only [encode, List.mem_cons, List.not_mem_nil, or_false] at h
      rcases h with h | h | h <;> exact ⟨_, and_63_lt _, h.symm⟩
  | case3 a =>
      simp only [encode, List.mem_cons, List.not_mem_nil, or_false] at h
      rcases h with h | h <;> exact ⟨_, and_63_lt _, h.symm⟩
  | case4 => exact absurd h List.not_mem_nil

theorem pad_quad (padding a b c d : δ) (s : List δ) :
    pad padding (a :: b :: c :: d :: s) = a :: b :: c :: d :: pad padding s := by
  have hlength : (a :: b :: c :: d :: s).length % 4 = s.length % 4 := Nat.add_mod_right s.length 4
  rw [pad, hlength]
  rfl

/-! ### Round trip -/

variable [DecidableEq δ] {digit : ℕ → δ} {value : δ → ℕ} {padding : δ}

/-- **Round trip.**  An alphabet whose digits have their values and none of which is the padding,
which counts as zero. -/
theorem decode_pad_encode (hvalue : ∀ n < 64, value (digit n) = n)
    (hpad : ∀ n < 64, digit n ≠ padding) (hzero : value padding = 0) (bs : List UInt8) :
    decode value padding (pad padding (encode digit bs)) = bs := by
  have hdigit : ∀ n, value (digit (n &&& 63)) = n &&& 63 := fun n => hvalue _ (and_63_lt n)
  have hne : ∀ n, digit (n &&& 63) ≠ padding := fun n => hpad _ (and_63_lt n)
  induction bs using encode.induct with
  | case1 a b c rest ih =>
      simp only [encode, pad_quad, decode, hdigit, hne, quad_digits (triple_lt a b c), ih, if_false,
        triple_fst, triple_snd, triple_trd, List.cons_append, List.nil_append]
  | case2 a b =>
      have hlast : triple a b 0 &&& 63 = 0 := by
        rw [triple_eq, and_63]
        show (a.toNat * 65536 + (b.toNat * 256 + 0)) % 64 = 0
        omega
      have hquad := quad_digits (triple_lt a b 0)
      rw [hlast] at hquad
      simp only [encode, pad, List.length_cons, List.length_nil, List.replicate, List.cons_append,
        List.nil_append, decode, hdigit, hne, hzero, hquad, if_false, if_true, triple_fst,
        triple_snd]
  | case3 a =>
      have hlast : triple a 0 0 >>> 6 &&& 63 = 0 ∧ triple a 0 0 &&& 63 = 0 := by
        rw [triple_eq, and_63, and_63, Nat.shiftRight_eq_div_pow]
        show (a.toNat * 65536 + (0 * 256 + 0)) / 2 ^ 6 % 64 = 0 ∧
          (a.toNat * 65536 + (0 * 256 + 0)) % 64 = 0
        omega
      have hquad := quad_digits (triple_lt a 0 0)
      rw [hlast.1, hlast.2] at hquad
      simp only [encode, pad, List.length_cons, List.length_nil, List.replicate, List.cons_append,
        List.nil_append, decode, hdigit, hzero, hquad, if_true, triple_fst]
  | case4 => simp [encode, pad, decode]

end Support.Base64
