import LoongNvr.Support.Buffer
import Mathlib.Data.List.Perm.Basic
import Mathlib.Data.List.Range

/-!
# Core — FrameBufferPool

The pool of frame buffers, which are all cut from one block of memory.  A buffer is known by its
number; it is outstanding until the last `shared_ptr` to it is dropped, which gives it back.

* `FrameBufferPool.new`: the constructor, whose product of two `size_t` may wrap around; `none` when
  the block cannot be made.
* `PoolStep.run`: a call of `Acquire`, a buffer given back, or the use of an outstanding one.
* `Complementary`: each buffer is available or outstanding, and not both; no step changes that.
* `Exclusive`: no two outstanding buffers have a byte in common, and the counts are right.
* `exclusive_iff`: so it is in all runs exactly when the block is as large as the buffers together,
  or cannot be made.
-/

namespace LoongNvr.Core
open Support

/-- A pre-allocated frame buffer; `data` is its place in the block. -/
structure FrameBuffer where
  data : ℕ
  capacity : ℕ
  actualSize : ℕ := 0
  deriving DecidableEq, Repr

/-- `FrameBufferPool`, with the outstanding buffers. -/
structure FrameBufferPool where
  memoryBlock : ℕ
  available : List ℕ
  allBuffers : List FrameBuffer
  bufferSize : ℕ
  totalCount : ℕ
  outstanding : List ℕ := []
  deriving DecidableEq, Repr

namespace FrameBufferPool

/-- A `size_t` product. -/
def sizeMul (a b : ℕ) : ℕ := a * b % 2 ^ 64

/-- The constructor, unless `resize` throws. -/
def new (count bufferSize : ℕ) : Option FrameBufferPool :=
  if sizeMul count bufferSize > ptrdiffMax then none
  else some
    { memoryBlock := sizeMul count bufferSize
      available := List.range count
      allBuffers := (List.range count).map fun i =>
        { data := sizeMul i bufferSize, capacity := bufferSize }
      bufferSize := bufferSize
      totalCount := count }

variable (pool : FrameBufferPool)

/-- `Acquire` -/
def acquire : Option ℕ × FrameBufferPool :=
  match pool.available with
  | [] => (none, pool)
  | raw :: available =>
      (some raw, { pool with available := available, outstanding := raw :: pool.outstanding })

/-- `SetActualSize` of a buffer. -/
def setActualSize (buffer size : ℕ) : FrameBufferPool :=
  { pool with allBuffers := pool.allBuffers.modify buffer fun b => { b with actualSize := size } }

/-- `Release` -/
def release (buffer : ℕ) : FrameBufferPool :=
  let pool := pool.setActualSize buffer 0
  { pool with
    available := pool.available ++ [buffer]
    outstanding := pool.outstanding.erase buffer }

def availableCount : ℕ := pool.available.length

end FrameBufferPool

/-- What is done with a pool. -/
inductive PoolStep
  | acquire
  | release (buffer : ℕ)
  | setActualSize (buffer size : ℕ)

/-- Only outstanding buffers are given back or used. -/
def PoolStep.run (pool : FrameBufferPool) : PoolStep → FrameBufferPool
  | acquire => pool.acquire.2
  | release buffer => if buffer ∈ pool.outstanding then pool.release buffer else pool
  | setActualSize buffer size =>
      if buffer ∈ pool.outstanding then pool.setActualSize buffer size else pool

namespace FrameBufferPool

/-- Every buffer is accounted for, none is handed out twice, `Acquire` fails exactly when all are
outstanding and else gives an empty one, and the buffers are apart in the block. -/
structure Exclusive (count : ℕ) (pool : FrameBufferPool) : Prop where
  counted : pool.availableCount + pool.outstanding.length = pool.totalCount
  distinct : pool.outstanding.Nodup
  exhausted : pool.acquire.1 = none ↔ pool.outstanding.length = count
  new : ∀ buffer, pool.acquire.1 = some buffer → buffer ∉ pool.outstanding
  empty : ∀ buffer, pool.acquire.1 = some buffer →
    (pool.acquire.2.allBuffers[buffer]?).map (·.actualSize) = some 0
  apart : ∀ (i j : ℕ) (a b : FrameBuffer), i ≠ j →
    pool.allBuffers[i]? = some a → pool.allBuffers[j]? = some b →
      a.data + a.capacity ≤ b.data ∨ b.data + b.capacity ≤ a.data
  inside : ∀ a ∈ pool.allBuffers, a.data + a.capacity ≤ pool.memoryBlock

/-! ### The free list and the outstanding buffers -/

/-- Where a buffer is, whatever it holds. -/
def places (pool : FrameBufferPool) : List (ℕ × ℕ) :=
  pool.allBuffers.map fun b => (b.data, b.capacity)

/-- The available and the outstanding buffers are together all buffers, and those available hold
nothing. -/
structure Complementary (count : ℕ) (pool : FrameBufferPool) : Prop where
  total : pool.totalCount = count
  length_eq : pool.allBuffers.length = count
  perm : (pool.available ++ pool.outstanding).Perm (List.range count)
  empty : ∀ i ∈ pool.available, (pool.allBuffers[i]?).map (·.actualSize) = some 0

variable {count bufferSize : ℕ} {pool : FrameBufferPool}

theorem new_cases (h : new count bufferSize = some pool) :
    sizeMul count bufferSize ≤ ptrdiffMax ∧
      pool =
        { memoryBlock := sizeMul count bufferSize
          available := List.range count
          allBuffers := (List.range count).map fun i =>
            { data := sizeMul i bufferSize, capacity := bufferSize }
          bufferSize := bufferSize
          totalCount := count } := by
  unfold new at h
  split at h
  · cases h
  · rename_i hfits
    exact ⟨not_lt.mp hfits, (Option.some.inj h).symm⟩

theorem complementary_new (h : new count bufferSize = some pool) : pool.Complementary count := by
  obtain ⟨-, rfl⟩ := new_cases h
  refine ⟨rfl, by simp, by simp, fun i hi => ?_⟩
  have hi : i < count := List.mem_range.mp hi
  simp [hi]

theorem length_setActualSize (pool : FrameBufferPool) (buffer size : ℕ) :
    (pool.setActualSize buffer size).allBuffers.length = pool.allBuffers.length :=
  List.length_modify _ _ _

theorem getElem?_setActualSize_ne {i buffer : ℕ} (h : i ≠ buffer) (size : ℕ) :
    (pool.setActualSize buffer size).allBuffers[i]? = pool.allBuffers[i]? := by
  simp [setActualSize, Ne.symm h]

theorem actualSize_setActualSize_self {buffer : ℕ} (h : buffer < pool.allBuffers.length)
    (size : ℕ) :
    ((pool.setActualSize buffer size).allBuffers[buffer]?).map (·.actualSize) = some size := by
  simp [setActualSize, h]

/-- **A step** gives a buffer from one list to the other, or leaves both alone. -/
theorem Complementary.step (h : pool.Complementary count) (step : PoolStep) :
    (step.run pool).Complementary count := by
  have hnodup : (pool.available ++ pool.outstanding).Nodup :=
    h.perm.nodup_iff.mpr List.nodup_range
  have hapart : ∀ i ∈ pool.available, ∀ j ∈ pool.outstanding, i ≠ j :=
    (List.nodup_append.mp hnodup).2.2
  cases step with
  | acquire =>
      rw [PoolStep.run, acquire]
      cases havailable : pool.available with
      | nil => exact h
      | cons raw available =>
          have hperm := h.perm
          have hempty := h.empty
          rw [havailable] at hperm hempty
          refine ⟨h.total, h.length_eq, ?_, (List.forall_mem_cons.mp hempty).2⟩
          exact List.perm_middle.trans hperm
  | release buffer =>
      rw [PoolStep.run]
      split
      · rename_i hout
        have hlt : buffer < pool.allBuffers.length := by
          rw [h.length_eq, ← List.mem_range, ← h.perm.mem_iff]
          exact List.mem_append_right _ hout
        refine ⟨h.total, (length_setActualSize pool buffer 0).trans h.length_eq, ?_, ?_⟩
        · have hback : (buffer :: pool.outstanding.erase buffer).Perm pool.outstanding :=
            (List.perm_cons_erase hout).symm
          show (pool.available ++ [buffer] ++ pool.outstanding.erase buffer).Perm _
          rw [List.append_assoc]
          exact (hback.append_left _).trans h.perm
        · intro i hi
          rcases List.mem_append.mp hi with hi | hi
          · have hne : i ≠ buffer := hapart i hi buffer hout
            show ((pool.setActualSize buffer 0).allBuffers[i]?).map (·.actualSize) = some 0
            rw [getElem?_setActualSize_ne hne]
            exact h.empty i hi
          · obtain rfl := List.mem_singleton.mp hi
            exact actualSize_setActualSize_self hlt 0
      · exact h
  | setActualSize buffer size =>
      rw [PoolStep.run]
      split
      · rename_i hout
        refine ⟨h.total, (length_setActualSize pool buffer size).trans h.length_eq, h.perm, ?_⟩
        intro i hi
        rw [getElem?_setActualSize_ne (hapart i hi buffer hout)]
        exact h.empty i hi
      · exact h

theorem Complementary.run (h : pool.Complementary count) (steps : List PoolStep) :
    (steps.foldl PoolStep.run pool).Complementary count := by
  induction steps generalizing pool with
  | nil => exact h
  | cons step steps ih => exact ih (h.step step)

/-- What the buffers hold does not move them. -/
theorem places_setActualSize (pool : FrameBufferPool) (buffer size : ℕ) :
    (pool.setActualSize buffer size).places = pool.places := by
  refine List.ext_getElem? fun i => ?_
  rw [places, places, List.getElem?_map, List.getElem?_map]
  rcases eq_or_ne i buffer with rfl | hne
  · simp [setActualSize]
    rfl
  · rw [getElem?_setActualSize_ne hne]

theorem places_step (pool : FrameBufferPool) (step : PoolStep) :
    (step.run pool).places = pool.places ∧ (step.run pool).memoryBlock = pool.memoryBlock := by
  cases step with
  | acquire =>
      rw [PoolStep.run, acquire]
      split <;> exact ⟨rfl, rfl⟩
  | release buffer =>
      rw [PoolStep.run]
      split
      · exact ⟨places_setActualSize pool buffer 0, rfl⟩
      · exact ⟨rfl, rfl⟩
  | setActualSize buffer size =>
      rw [PoolStep.run]
      split
      · exact ⟨places_setActualSize pool buffer size, rfl⟩
      · exact ⟨rfl, rfl⟩

theorem places_run (pool : FrameBufferPool) (steps : List PoolStep) :
    (steps.foldl PoolStep.run pool).places = pool.places ∧
      (steps.foldl PoolStep.run pool).memoryBlock = pool.memoryBlock := by
  induction steps generalizing pool with
  | nil => exact ⟨rfl, rfl⟩
  | cons step steps ih =>
      obtain ⟨hplaces, hblock⟩ := ih (step.run pool)
      obtain ⟨hplaces', hblock'⟩ := pool.places_step step
      exact ⟨hplaces.trans hplaces', hblock.trans hblock'⟩

/-! ### The block -/

theorem places_new (h : new count bufferSize = some pool) :
    pool.places = (List.range count).map fun i => (sizeMul i bufferSize, bufferSize) := by
  obtain ⟨-, rfl⟩ := new_cases h
  rw [places, List.map_map]
  rfl

/-- Where the product does not wrap around, the buffers lie one behind the other. -/
theorem sizeMul_of_lt (h : count * bufferSize < 2 ^ 64) {i : ℕ} (hi : i < count) :
    sizeMul i bufferSize = i * bufferSize ∧ (i + 1) * bufferSize ≤ count * bufferSize := by
  have hle : i * bufferSize ≤ count * bufferSize := Nat.mul_le_mul_right _ hi.le
  exact ⟨Nat.mod_eq_of_lt (hle.trans_lt h), Nat.mul_le_mul_right _ hi⟩

theorem exclusive_of_complementary {start : FrameBufferPool}
    (hnew : new count bufferSize = some start) (hfits : count * bufferSize < 2 ^ 64)
    (h : pool.Complementary count) (hplaces : pool.places = start.places)
    (hblock : pool.memoryBlock = start.memoryBlock) : pool.Exclusive count := by
  have hlength : pool.available.length + pool.outstanding.length = count := by
    rw [← List.length_append, h.perm.length_eq, List.length_range]
  have hnodup : (pool.available ++ pool.outstanding).Nodup :=
    h.perm.nodup_iff.mpr List.nodup_range
  have hplace : ∀ (i : ℕ) (a : FrameBuffer), pool.allBuffers[i]? = some a →
      i < count ∧ a.data = i * bufferSize ∧ a.capacity = bufferSize := by
    intro i a ha
    have hi : i < count := by
      rw [← h.length_eq]
      exact (List.getElem?_eq_some_iff.mp ha).1
    have hmap : pool.places[i]? = some (a.data, a.capacity) := by
      rw [places, List.getElem?_map, ha]
      rfl
    rw [hplaces, places_new hnew, List.getElem?_map, List.getElem?_range hi, Option.map_some,
      Option.some_inj, (sizeMul_of_lt hfits hi).1] at hmap
    obtain ⟨hdata, hcapacity⟩ := Prod.mk.inj hmap
    exact ⟨hi, hdata.symm, hcapacity.symm⟩
  refine ⟨hlength.trans h.total.symm, (List.nodup_append.mp hnodup).2.1, ?_, ?_, ?_, ?_, ?_⟩
  · rw [acquire]
    cases havailable : pool.available with
    | nil =>
        rw [havailable, List.length_nil, Nat.zero_add] at hlength
        exact iff_of_true rfl hlength
    | cons raw available =>
        rw [havailable, List.length_cons] at hlength
        exact iff_of_false (by simp) (by omega)
  · intro buffer hacquire hout
    rw [acquire] at hacquire
    cases havailable : pool.available with
    | nil =>
        rw [havailable] at hacquire
        cases hacquire
    | cons raw available =>
        rw [havailable] at hacquire hnodup
        obtain rfl : raw = buffer := Option.some.inj hacquire
        exact (List.nodup_cons.mp hnodup).1 (List.mem_append_right _ hout)
  · intro buffer hacquire
    rw [acquire] at hacquire ⊢
    cases havailable : pool.available with
    | nil =>
        rw [havailable] at hacquire
        cases hacquire
    | cons raw available =>
        rw [havailable] at hacquire
        obtain rfl : raw = buffer := Option.some.inj hacquire
        exact h.empty raw (havailable ▸ List.mem_cons_self)
  · intro i j a b hne ha hb
    obtain ⟨-, hdataA, hcapacityA⟩ := hplace i a ha
    obtain ⟨-, hdataB, hcapacityB⟩ := hplace j b hb
    rw [hdataA, hdataB, hcapacityA, hcapacityB, ← Nat.succ_mul, ← Nat.succ_mul]
    rcases Nat.lt_or_gt_of_ne hne with hlt | hgt
    · exact .inl (Nat.mul_le_mul_right _ hlt)
    · exact .inr (Nat.mul_le_mul_right _ hgt)
  · intro a ha
    obtain ⟨i, hi⟩ := List.mem_iff_getElem?.mp ha
    obtain ⟨hlt, hdata, hcapacity⟩ := hplace i a hi
    have hsize : start.memoryBlock = count * bufferSize := by
      obtain ⟨-, rfl⟩ := new_cases hnew
      exact Nat.mod_eq_of_lt hfits
    rw [hdata, hcapacity, hblock, hsize, ← Nat.succ_mul]
    exact (sizeMul_of_lt hfits hlt).2

/-- Where it wraps around, the buffer that the end of the block cuts is not inside. -/
theorem not_inside_of_wraps (hnew : new count bufferSize = some pool)
    (hwraps : 2 ^ 64 ≤ count * bufferSize) :
    ∃ a ∈ pool.allBuffers, pool.memoryBlock < a.data + a.capacity := by
  obtain ⟨-, rfl⟩ := new_cases hnew
  have hblock : sizeMul count bufferSize < 2 ^ 64 := Nat.mod_lt _ (by decide)
  have hpos : 0 < bufferSize := by
    rcases Nat.eq_zero_or_pos bufferSize with rfl | hpos
    · rw [Nat.mul_zero] at hwraps
      exact absurd hwraps (by decide)
    · exact hpos
  have hlow : sizeMul count bufferSize / bufferSize * bufferSize ≤ sizeMul count bufferSize :=
    Nat.div_mul_le_self _ _
  have hhigh : sizeMul count bufferSize <
      sizeMul count bufferSize / bufferSize * bufferSize + bufferSize := by
    rw [← Nat.succ_mul]
    exact Nat.lt_mul_of_div_lt (Nat.lt_succ_self _) hpos
  have hlt : sizeMul count bufferSize / bufferSize < count := by
    rw [Nat.div_lt_iff_lt_mul hpos]
    exact hblock.trans_le hwraps
  refine ⟨_, List.mem_map.mpr ⟨_, List.mem_range.mpr hlt, rfl⟩, ?_⟩
  have hplace : sizeMul (sizeMul count bufferSize / bufferSize) bufferSize =
      sizeMul count bufferSize / bufferSize * bufferSize := Nat.mod_eq_of_lt (hlow.trans_lt hblock)
  rw [hplace]
  exact hhigh

/-- **The pool is sound** in all its runs exactly when the size of the block does not wrap around,
or is too large after it did. -/
theorem exclusive_iff (count bufferSize : ℕ) :
    (∀ pool, new count bufferSize = some pool → ∀ steps : List PoolStep,
      (steps.foldl PoolStep.run pool).Exclusive count) ↔
      count * bufferSize < 2 ^ 64 ∨ ptrdiffMax < count * bufferSize % 2 ^ 64 := by
  constructor
  · intro h
    by_contra hwraps
    rw [not_or, not_lt, not_lt] at hwraps
    obtain ⟨pool, hpool⟩ : ∃ pool, new count bufferSize = some pool :=
      ⟨_, if_neg (not_lt.mpr hwraps.2)⟩
    obtain ⟨a, ha, hout⟩ := not_inside_of_wraps hpool hwraps.1
    exact absurd ((h pool hpool []).inside a ha) (not_le.mpr hout)
  · rintro (hfits | hlarge) pool hpool steps
    · obtain ⟨hplaces, hblock⟩ := pool.places_run steps
      have hlists := (complementary_new hpool).run steps
      exact exclusive_of_complementary hpool hfits hlists hplaces hblock
    · exact absurd (new_cases hpool).1 (not_le.mpr hlarge)

/-- Two buffers of 2^63 bytes each. -/
theorem pool_refuted :
    ∃ pool, new 2 (2 ^ 63) = some pool ∧ pool.memoryBlock = 0 ∧ ¬ pool.Exclusive 2 := by
  refine ⟨_, rfl, rfl, fun h => ?_⟩
  exact absurd (h.inside ⟨0, 2 ^ 63, 0⟩ (by decide)) (by decide)

end FrameBufferPool

end LoongNvr.Core
