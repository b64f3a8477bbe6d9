import Mathlib.Data.List.Basic
import Mathlib.Tactic.Ring

/-!
# Support — Buffer

Byte buffers as a C++ function receives them, a pointer and a 64-bit length, and the two ways a
function over one can go wrong: a read outside the buffer, and a container asked for a size no
object can have (`Fault`).  A call is a `Checked` computation; proving that it never ends in
`outOfBounds` is proving its memory safety.

* `Buffer.read`, `Buffer.copy`, `Buffer.readBe`: one byte, `memcpy`, and a big-endian number.
* `read_eq`, `copy_eq`, `readBe_eq`: what they give inside the buffer.
* `beNat`: the number a byte list spells, most significant byte first.
* `be k n`: the last `k` base-256 digits of `n`.
* `beNat_be`: reading them back gives `n` modulo `256 ^ k`.
* `field`: a number read at a position, and `field_be`, `field_words` that find it there.
* `writeU16`, `writeU24`, `writeU32`, `writeU64`: a word written a byte at a time, which is `be`.
-/

namespace Support

/-- How a call can end other than by returning. -/
inductive Fault
  | outOfBounds
  | lengthError
  deriving DecidableEq, Repr

abbrev Checked (α : Type) := Except Fault α

/-- `PTRDIFF_MAX`: no object is larger. -/
def ptrdiffMax : ℕ := 2 ^ 63 - 1

/-- A readable range of bytes. -/
structure Buffer where
  bytes : List UInt8
  size_le : bytes.length ≤ ptrdiffMax

namespace Buffer

/-- The `size_t` length a call is given with the pointer. -/
def len (data : Buffer) : UInt64 := UInt64.ofNat data.bytes.length

/-- `data[i]` -/
def read (data : Buffer) (i : UInt64) : Checked UInt8 :=
  match data.bytes[i.toNat]? with
  | some b => .ok b
  | none => .error .outOfBounds

/-- `memcpy(_, data + pos, n)` -/
def copy (data : Buffer) (pos n : UInt64) : Checked (List UInt8) :=
  if pos.toNat + n.toNat ≤ data.bytes.length then
    .ok ((data.bytes.drop pos.toNat).take n.toNat)
  else .error .outOfBounds

/-- `n` times `acc = (acc << 8) | data[pos++]`. -/
def readBe (data : Buffer) (pos : UInt64) : ℕ → UInt64 → Checked UInt64
  | 0, acc => .ok acc
  | n + 1, acc => do
      let b ← data.read pos
      data.readBe (pos + 1) n (acc <<< 8 ||| b.toUInt64)

end Buffer

/-- `std::vector::resize(n)` on bytes, which throws for a size above `max_size()`. -/
def resize (n : UInt64) : Checked Unit :=
  if n.toNat ≤ ptrdiffMax then .ok () else .error .lengthError

/-- The number the bytes spell in base 256, most significant byte first, after `n`. -/
def beNatFrom (n : ℕ) (bs : List UInt8) : ℕ := bs.foldl (fun n b => n * 256 + b.toNat) n

/-- The number the bytes spell in base 256, most significant byte first. -/
def beNat (bs : List UInt8) : ℕ := beNatFrom 0 bs

/-! ### Numbers from bytes -/

/-- `(acc << 8) | b` appends a base-256 digit while the top byte of `acc` is free. -/
theorem pushByte_toNat (acc : UInt64) (b : UInt8) (h : acc.toNat < 2 ^ 56) :
    (acc <<< 8 ||| b.toUInt64).toNat = acc.toNat * 256 + b.toNat := by
  have hb : b.toNat < 2 ^ 8 := b.toNat_lt
  have hshift : (acc <<< 8).toNat = 2 ^ 8 * acc.toNat := by
    rw [UInt64.toNat_shiftLeft]
    simp only [UInt64.reduceToNat, Nat.reduceMod, Nat.shiftLeft_eq]
    omega
  rw [UInt64.toNat_or, hshift, UInt8.toNat_toUInt64, ← Nat.two_pow_add_eq_or_of_lt hb]
  ring

theorem beNatFrom_cons (n : ℕ) (b : UInt8) (bs : List UInt8) :
    beNatFrom n (b :: bs) = beNatFrom (n * 256 + b.toNat) bs := rfl

/-! ### Reads inside the buffer -/

namespace Buffer

theorem len_toNat (data : Buffer) : data.len.toNat = data.bytes.length := by
  have h := data.size_le
  rw [len, UInt64.toNat_ofNat']
  exact Nat.mod_eq_of_lt (by simp only [ptrdiffMax] at h; omega)

/-- Comparing the length in 64 bits is comparing numbers. -/
theorem len_lt_iff {data : Buffer} {n : UInt64} : data.len < n ↔ data.bytes.length < n.toNat := by
  rw [UInt64.lt_iff_toNat_lt, len_toNat]

theorem read_eq {data : Buffer} {i : UInt64} (h : i.toNat < data.bytes.length) :
    data.read i = .ok data.bytes[i.toNat] := by
  simp [read, List.getElem?_eq_getElem h]

theorem copy_eq {data : Buffer} {pos n : UInt64} (h : pos.toNat + n.toNat ≤ data.bytes.length) :
    data.copy pos n = .ok ((data.bytes.drop pos.toNat).take n.toNat) := if_pos h

/-- Reading `n` bytes that lie in the buffer, into an accumulator with room for them. -/
theorem readBe_eq (data : Buffer) (pos : UInt64) (n : ℕ) (acc : UInt64)
    (hin : pos.toNat + n ≤ data.bytes.length) (hroom : (acc.toNat + 1) * 256 ^ n ≤ 2 ^ 64) :
    ∃ x, data.readBe pos n acc = .ok x ∧
      x.toNat = beNatFrom acc.toNat ((data.bytes.drop pos.toNat).take n) := by
  induction n generalizing pos acc with
  | zero => exact ⟨acc, rfl, by simp [beNatFrom]⟩
  | succ n ih =>
      have hlt : pos.toNat < data.bytes.length := by omega
      have hpos : (pos + 1).toNat = pos.toNat + 1 := by
        have := data.size_le
        rw [UInt64.toNat_add]
        simp only [ptrdiffMax, UInt64.toNat_one] at this ⊢
        omega
      have hroom' : (acc.toNat + 1) * 256 * 256 ^ n ≤ 2 ^ 64 := by
        rwa [pow_succ', ← mul_assoc] at hroom
      have hacc : acc.toNat < 2 ^ 56 := by
        have hone : 1 ≤ 256 ^ n := Nat.one_le_pow _ _ (by decide)
        have := (Nat.le_mul_of_pos_right ((acc.toNat + 1) * 256) hone).trans hroom'
        omega
      set b := data.bytes[pos.toNat] with hb
      have hpush := pushByte_toNat acc b hacc
      obtain ⟨x, hx, hval⟩ := ih (pos + 1) (acc <<< 8 ||| b.toUInt64) (by omega) (by
          have hlt256 : b.toNat < 256 := b.toNat_lt
          rw [hpush]
          exact (Nat.mul_le_mul_right _ (by omega)).trans hroom')
      refine ⟨x, by simp only [readBe, read_eq hlt]; exact hx, ?_⟩
      rw [hval, hpos, hpush, List.drop_eq_getElem_cons hlt, List.take_succ_cons, beNatFrom_cons]

end Buffer

/-! ### Numbers as bytes

Numbers written as bytes, most significant byte first: the inverse of `beNat`.
-/

/-- The last `k` base-256 digits of `n`, most significant first. -/
def be : ℕ → ℕ → List UInt8
  | 0, _ => []
  | k + 1, n => UInt8.ofNat (n / 256 ^ k) :: be k n

/-- A field of `n` bytes at `pos`, as a number. -/
def field (bs : List UInt8) (pos n : ℕ) : ℕ := beNat ((bs.drop pos).take n)

@[simp] theorem length_be (k n : ℕ) : (be k n).length = k := by
  induction k with
  | zero => rfl
  | succ k ih => simp only [be, List.length_cons, ih]

/-! ### Reading back -/

theorem beNatFrom_be (k m n : ℕ) : beNatFrom m (be k n) = m * 256 ^ k + n % 256 ^ k := by
  induction k generalizing m with
  | zero => simp [be, beNatFrom, Nat.mod_one]
  | succ k ih =>
      have hsplit : n % 256 ^ (k + 1) = n / 256 ^ k % 256 * 256 ^ k + n % 256 ^ k := by
        rw [pow_succ, Nat.mod_mul, mul_comm (256 ^ k), add_comm]
      rw [be, beNatFrom_cons, ih, hsplit]
      simp only [UInt8.toNat_ofNat', Nat.reducePow]
      ring

/-- A number comes back from its digits, up to the digits that were cut off. -/
theorem beNat_be (k n : ℕ) : beNat (be k n) = n % 256 ^ k := by
  rw [beNat, beNatFrom_be, zero_mul, zero_add]

theorem beNatFrom_lt {m k : ℕ} (bs : List UInt8) (h : m < k) :
    beNatFrom m bs < k * 256 ^ bs.length := by
  induction bs generalizing m k with
  | nil => simpa [beNatFrom] using h
  | cons b bs ih =>
      have hb := b.toNat_lt
      have hnext : m * 256 + b.toNat < k * 256 := by omega
      rw [beNatFrom_cons, List.length_cons, pow_succ', ← mul_assoc]
      exact ih hnext

/-! ### Fields -/

/-- A field is no larger than its bytes allow. -/
theorem field_lt (bs : List UInt8) (pos n : ℕ) : field bs pos n < 256 ^ n := by
  have hlen : ((bs.drop pos).take n).length ≤ n := List.length_take_le _ _
  calc field bs pos n
      < 1 * 256 ^ ((bs.drop pos).take n).length := beNatFrom_lt _ Nat.one_pos
    _ ≤ 256 ^ n := by
        rw [one_mul]
        exact Nat.pow_le_pow_right (by decide) hlen

/-- A field is read where it was written. -/
theorem field_append (pre : List UInt8) {mid post : List UInt8} {pos n : ℕ}
    (hpos : pre.length = pos) (hn : mid.length = n) :
    field (pre ++ (mid ++ post)) pos n = beNat mid := by
  subst hpos hn
  rw [field, List.drop_left, List.take_left]

theorem beNat_be_of_lt {k n : ℕ} (h : n < 256 ^ k) : beNat (be k n) = n := by
  rw [beNat_be, Nat.mod_eq_of_lt h]

/-- A number is read where it was written. -/
theorem field_be (pre : List UInt8) {post : List UInt8} {pos k n : ℕ} (hpos : pre.length = pos)
    (h : n < 256 ^ k) : field (pre ++ (be k n ++ post)) pos k = n := by
  rw [field_append pre hpos (length_be k n), beNat_be_of_lt h]

/-- Words of four bytes in a row are read at multiples of four. -/
theorem field_words {ws : List ℕ} (hws : ∀ w ∈ ws, w < 2 ^ 32) (pre : List UInt8) {i : ℕ}
    (hi : i < ws.length) : field (pre ++ ws.flatMap (be 4)) (pre.length + 4 * i) 4 = ws[i] := by
  induction ws generalizing pre i with
  | nil => exact absurd hi (by simp)
  | cons w ws ih =>
      rw [List.flatMap_cons]
      cases i with
      | zero => exact field_be pre rfl (hws w (by simp))
      | succ i =>
          have hpos : pre.length + 4 * (i + 1) = (pre ++ be 4 w).length + 4 * i := by
            rw [List.length_append, length_be]
            omega
          rw [← List.append_assoc, hpos,
            ih (fun v hv => hws v (List.mem_cons_of_mem _ hv)) (pre ++ be 4 w)]
          rfl

/-! ### Words written a byte at a time -/

/-- `WriteU16Be` -/
def writeU16 (val : UInt16) : List UInt8 :=
  [(val >>> 8 &&& 0xFF).toUInt8, (val &&& 0xFF).toUInt8]

/-- `WriteU24Be`: the top byte of `val` is not written. -/
def writeU24 (val : UInt32) : List UInt8 :=
  [(val >>> 16 &&& 0xFF).toUInt8, (val >>> 8 &&& 0xFF).toUInt8, (val &&& 0xFF).toUInt8]

/-- `WriteU32Be` -/
def writeU32 (val : UInt32) : List UInt8 :=
  [(val >>> 24 &&& 0xFF).toUInt8, (val >>> 16 &&& 0xFF).toUInt8, (val >>> 8 &&& 0xFF).toUInt8,
    (val &&& 0xFF).toUInt8]

/-- `WriteU64Be`: the high word, then the low word. -/
def writeU64 (val : UInt64) : List UInt8 :=
  writeU32 (val >>> 32 &&& 0xFFFFFFFF).toUInt32 ++ writeU32 (val &&& 0xFFFFFFFF).toUInt32

private theorem and_255 (n : ℕ) : n &&& 255 = n % 256 := Nat.and_two_pow_sub_one_eq_mod n 8

/-- `static_cast<uint8_t>((val >> k) & 0xFF)` is a base-256 digit of `val`. -/
theorem byte_of_word (val k : UInt32) (hk : k.toNat < 32) :
    (val >>> k &&& 0xFF).toUInt8 = UInt8.ofNat (val.toNat / 2 ^ k.toNat) := by
  apply UInt8.toNat_inj.mp
  simp only [UInt32.toNat_toUInt8, UInt32.toNat_and, UInt32.toNat_shiftRight,
    Nat.mod_eq_of_lt hk, Nat.shiftRight_eq_div_pow, UInt8.toNat_ofNat', UInt32.reduceToNat,
    Nat.reducePow, and_255, Nat.mod_mod]

theorem low_byte_of_word (val : UInt32) : (val &&& 0xFF).toUInt8 = UInt8.ofNat val.toNat := by
  simpa using byte_of_word val 0 (by decide)

theorem writeU16_eq (val : UInt16) : writeU16 val = be 2 val.toNat := by
  have hlow : (val &&& 0xFF).toUInt8 = UInt8.ofNat val.toNat := by
    apply UInt8.toNat_inj.mp
    simp only [UInt16.toNat_toUInt8, UInt16.toNat_and, UInt8.toNat_ofNat', UInt16.reduceToNat,
      Nat.reducePow, and_255, Nat.mod_mod]
  have hhigh : (val >>> 8 &&& 0xFF).toUInt8 = UInt8.ofNat (val.toNat / 256) := by
    apply UInt8.toNat_inj.mp
    simp only [UInt16.toNat_toUInt8, UInt16.toNat_and, UInt16.toNat_shiftRight,
      Nat.shiftRight_eq_div_pow, UInt8.toNat_ofNat', UInt16.reduceToNat, Nat.reducePow,
      Nat.reduceMod, and_255, Nat.mod_mod]
  simp only [writeU16, be, hlow, hhigh, pow_zero, pow_one, Nat.div_one]

theorem writeU16_ofNat {n : ℕ} (h : n < 2 ^ 16) : writeU16 (UInt16.ofNat n) = be 2 n := by
  rw [writeU16_eq, UInt16.toNat_ofNat', Nat.mod_eq_of_lt h]

theorem writeU24_eq (val : UInt32) : writeU24 val = be 3 val.toNat := by
  rw [writeU24, low_byte_of_word val, byte_of_word val 16 (by decide),
    byte_of_word val 8 (by decide)]
  simp [be]

theorem writeU32_eq (val : UInt32) : writeU32 val = be 4 val.toNat := by
  rw [writeU32, low_byte_of_word val, byte_of_word val 24 (by decide),
    byte_of_word val 16 (by decide), byte_of_word val 8 (by decide)]
  simp [be]

/-- Digits of a number with more digits above them. -/
theorem be_add (j k n : ℕ) : be (j + k) n = be j (n / 256 ^ k) ++ be k n := by
  induction j with
  | zero => simp [be]
  | succ j ih =>
      rw [Nat.succ_add, be, be, ih, Nat.div_div_eq_div_mul, ← pow_add, add_comm k j]
      rfl

theorem be_mod (k m n : ℕ) (h : k ≤ m) : be k (n % 256 ^ m) = be k n := by
  induction k with
  | zero => rfl
  | succ k ih =>
      have hdigit : UInt8.ofNat (n % 256 ^ m / 256 ^ k) = UInt8.ofNat (n / 256 ^ k) := by
        apply UInt8.toNat_inj.mp
        have hm : 256 ^ m = 256 ^ k * (256 * 256 ^ (m - (k + 1))) := by
          rw [← pow_succ', ← pow_add]
          congr 1
          omega
        rw [UInt8.toNat_ofNat', UInt8.toNat_ofNat', hm, Nat.mod_mul_right_div_self]
        exact Nat.mod_mul_right_mod _ _ _
      rw [be, be, hdigit, ih (by omega)]

theorem writeU64_eq (val : UInt64) : writeU64 val = be 8 val.toNat := by
  have hmask : ∀ n : ℕ, n &&& 4294967295 = n % 256 ^ 4 :=
    fun n => Nat.and_two_pow_sub_one_eq_mod n 32
  have hhigh : ((val >>> 32 &&& 0xFFFFFFFF).toUInt32).toNat = val.toNat / 256 ^ 4 % 256 ^ 4 := by
    simp [hmask, Nat.shiftRight_eq_div_pow]
  have hlow : ((val &&& 0xFFFFFFFF).toUInt32).toNat = val.toNat % 256 ^ 4 := by
    simp [hmask]
  rw [writeU64, writeU32_eq, writeU32_eq, hhigh, hlow, be_mod 4 4 _ le_rfl, be_mod 4 4 _ le_rfl,
    ← be_add]

end Support
