import Mathlib.Algebra.Order.Group.Nat
import Mathlib.Data.List.Basic

/-!
# Support — AnnexB

The byte stream format of H.264 Annex B, with no decoder in mind.  A stream is a list of NAL
units, each behind a start code of three or four bytes; reading it back is finding the start
codes.

* `code3At`, `code4At`: a start code at a position.
* `firstUnit`, `cut`, `nalRanges`: where the first unit begins, the ranges between the start codes
  from a position on, and the non-empty NAL units of a stream as ranges of it.
* `Nal`: the bytes a stream can carry as one unit, with the facts that make it so.
* `serialise`, `offsets`: a list of units as a stream, and where the units lie in it.
* `map_bytesAt_offsets`, `map_getD_offsets`: what lies there, and its first bytes.
* `nalRanges_serialise`: the units of a stream are found where they lie.
-/

namespace AnnexB

/-! ### Start codes -/

/-- `00 00 01` at `i`. -/
def code3At (data : List UInt8) (i : ℕ) : Bool :=
  data[i]? == some 0 && data[i + 1]? == some 0 && data[i + 2]? == some 1

/-- `00 00 00 01` at `i`. -/
def code4At (data : List UInt8) (i : ℕ) : Bool :=
  data[i]? == some 0 && data[i + 1]? == some 0 && data[i + 2]? == some 0 && data[i + 3]? == some 1

/-- Where the first NAL unit from `i` on begins: after the first start code. -/
def firstUnit (data : List UInt8) (i : ℕ) : Option ℕ :=
  if i < data.length then
    if code3At data i then some (i + 3)
    else if code4At data i then some (i + 4)
    else firstUnit data (i + 1)
  else none
  termination_by data.length - i

/-- The ranges, as first position and length, between the start codes from `i` on; the first of
them begins at `start`, the last ends with the stream. -/
def cut (data : List UInt8) (i start : ℕ) : List (ℕ × ℕ) :=
  if i < data.length then
    if code3At data i then (start, i - start) :: cut data (i + 3) (i + 3)
    else if code4At data i then (start, i - start) :: cut data (i + 4) (i + 4)
    else cut data (i + 1) start
  else [(start, data.length - start)]
  termination_by data.length - i

/-- The NAL units of a stream: what stands between its start codes, if anything does. -/
def nalRanges (data : List UInt8) : List (ℕ × ℕ) :=
  match firstUnit data 0 with
  | some i => (cut data i i).filter (·.2 ≠ 0)
  | none => []

/-- The bytes of a range. -/
def bytesAt (data : List UInt8) (range : ℕ × ℕ) : List UInt8 :=
  (data.drop range.1).take range.2

theorem code3At_iff {data : List UInt8} {i : ℕ} :
    code3At data i = true ↔ data[i]? = some 0 ∧ data[i + 1]? = some 0 ∧ data[i + 2]? = some 1 := by
  simp [code3At, and_assoc]

theorem code4At_iff {data : List UInt8} {i : ℕ} :
    code4At data i = true ↔ data[i]? = some 0 ∧ code3At data (i + 1) = true ∧
      data[i + 1]? = some 0 := by
  simp only [code4At, code3At_iff, Bool.and_eq_true, beq_iff_eq]
  tauto

theorem lt_of_code3At {data : List UInt8} {i : ℕ} (h : code3At data i = true) :
    i + 2 < data.length := (List.getElem?_eq_some_iff.mp (code3At_iff.mp h).2.2).1

theorem lt_of_code4At {data : List UInt8} {i : ℕ} (h : code4At data i = true) :
    i + 3 < data.length := lt_of_code3At (code4At_iff.mp h).2.1

/-- A start code of four bytes does not begin with one of three. -/
theorem not_code3At_of_code4At {data : List UInt8} {i : ℕ} (h : code4At data i = true) :
    code3At data i = false := by
  obtain ⟨-, h', -⟩ := code4At_iff.mp h
  rw [code3At_iff] at h'
  rw [Bool.eq_false_iff, Ne, code3At_iff]
  rintro ⟨-, -, h1⟩
  rw [h'.2.1] at h1
  exact absurd h1 (by decide)

/-- A stream has a start code at some position exactly when it has the bytes in a row. -/
theorem infix_iff_code3At {data : List UInt8} :
    [0, 0, 1] <:+: data ↔ ∃ i, code3At data i = true := by
  rw [List.infix_iff_getElem?]
  constructor
  · rintro ⟨k, -, h⟩
    have h0 := h 0 (by simp)
    have h1 := h 1 (by simp)
    have h2 := h 2 (by simp)
    exact ⟨k, code3At_iff.mpr ⟨by simpa using h0, by simpa [add_comm] using h1,
      by simpa [add_comm] using h2⟩⟩
  · rintro ⟨k, h⟩
    have hlen := lt_of_code3At h
    obtain ⟨h0, h1, h2⟩ := code3At_iff.mp h
    refine ⟨k, by simp only [List.length_cons, List.length_nil]; omega, fun i hi => ?_⟩
    match i, hi with
    | 0, _ => simpa using h0
    | 1, _ => simpa [add_comm] using h1
    | 2, _ => simpa [add_comm] using h2

/-! ### One step of the scan -/

section Scan

variable {data : List UInt8} {i start : ℕ}

theorem cut_code3 (h : code3At data i = true) :
    cut data i start = (start, i - start) :: cut data (i + 3) (i + 3) := by
  have := lt_of_code3At h
  rw [cut, if_pos (by omega), if_pos h]

theorem cut_code4 (h : code4At data i = true) :
    cut data i start = (start, i - start) :: cut data (i + 4) (i + 4) := by
  have := lt_of_code4At h
  rw [cut, if_pos (by omega), if_neg (by simp [not_code3At_of_code4At h]), if_pos h]

theorem cut_skip (hi : i < data.length) (h3 : code3At data i = false)
    (h4 : code4At data i = false) : cut data i start = cut data (i + 1) start := by
  rw [cut, if_pos hi, if_neg (by simp [h3]), if_neg (by simp [h4])]

theorem cut_end (hi : data.length ≤ i) : cut data i start = [(start, data.length - start)] := by
  rw [cut, if_neg (by omega)]

theorem firstUnit_code3 (h : code3At data i = true) : firstUnit data i = some (i + 3) := by
  have := lt_of_code3At h
  rw [firstUnit, if_pos (by omega), if_pos h]

theorem firstUnit_code4 (h : code4At data i = true) : firstUnit data i = some (i + 4) := by
  have := lt_of_code4At h
  rw [firstUnit, if_pos (by omega), if_neg (by simp [not_code3At_of_code4At h]), if_pos h]

end Scan

/-- There is a first unit exactly when there is a start code. -/
theorem firstUnit_eq_none_iff {data : List UInt8} {i : ℕ} :
    firstUnit data i = none ↔ ∀ j, i ≤ j → code3At data j = false := by
  fun_induction firstUnit data i with
  | case1 i _ h => simpa using ⟨i, le_rfl, h⟩
  | case2 i _ _ h => simpa using ⟨i + 1, by omega, (code4At_iff.mp h).2.1⟩
  | case3 i _ h3 _ ih =>
      rw [ih]
      constructor
      · intro h j hj
        rcases hj.eq_or_lt with rfl | hlt
        · simpa using h3
        · exact h j hlt
      · exact fun h j hj => h j (by omega)
  | case4 i hi =>
      simp only [true_iff]
      intro j hj
      rw [Bool.eq_false_iff]
      intro h
      have := lt_of_code3At h
      omega

theorem firstUnit_bounds {data : List UInt8} {i p : ℕ} (h : firstUnit data i = some p) :
    i + 3 ≤ p ∧ p ≤ data.length := by
  fun_induction firstUnit data i with
  | case1 i _ h3 =>
      have := lt_of_code3At h3
      simp only [Option.some.injEq] at h
      omega
  | case2 i _ _ h4 =>
      have := lt_of_code4At h4
      simp only [Option.some.injEq] at h
      omega
  | case3 i _ _ _ ih =>
      have := ih h
      omega
  | case4 => exact absurd h (by simp)

/-- A stream of less than four bytes has no room for a unit. -/
theorem nalRanges_of_length_lt {data : List UInt8} (h : data.length < 4) : nalRanges data = [] := by
  rw [nalRanges]
  cases e : firstUnit data 0 with
  | none => rfl
  | some p =>
      obtain ⟨hlow, hhigh⟩ := firstUnit_bounds e
      have hend : data.length - p = 0 := by omega
      simp [cut_end (show data.length ≤ p by omega), hend]

/-- With no start code ahead, what is left is one unit. -/
theorem cut_of_no_code {data : List UInt8} {i start : ℕ}
    (h : ∀ j, i ≤ j → code3At data j = false) :
    cut data i start = [(start, data.length - start)] := by
  fun_induction cut data i start with
  | case1 i start _ h3 => exact absurd h3 (by simp [h i le_rfl])
  | case2 i start _ _ h4 => exact absurd (code4At_iff.mp h4).2.1 (by simp [h (i + 1) (by omega)])
  | case3 i start _ _ _ ih => exact ih fun j hj => h j (by omega)
  | case4 => rfl

/-- The ranges of the scan lie in the stream. -/
theorem le_of_mem_cut {data : List UInt8} {i start : ℕ} {range : ℕ × ℕ}
    (h : range ∈ cut data i start) (hstart : start ≤ i) (hi : i ≤ data.length) :
    range.1 + range.2 ≤ data.length := by
  fun_induction cut data i start with
  | case1 i start _ h3 ih =>
      have := lt_of_code3At h3
      rcases List.mem_cons.mp h with rfl | h
      · simp only
        omega
      · exact ih h le_rfl (by omega)
  | case2 i start _ _ h4 ih =>
      have := lt_of_code4At h4
      rcases List.mem_cons.mp h with rfl | h
      · simp only
        omega
      · exact ih h le_rfl (by omega)
  | case3 i start _ _ _ ih => exact ih h (by omega) (by omega)
  | case4 i start _ =>
      rw [List.mem_singleton.mp h]
      simp only
      omega

theorem le_of_mem_nalRanges {data : List UInt8} {range : ℕ × ℕ} (h : range ∈ nalRanges data) :
    range.1 + range.2 ≤ data.length := by
  rw [nalRanges] at h
  cases e : firstUnit data 0 with
  | none => simp [e] at h
  | some p =>
      rw [e] at h
      exact le_of_mem_cut (List.mem_of_mem_filter h) le_rfl (firstUnit_bounds e).2

theorem length_bytesAt {data : List UInt8} {range : ℕ × ℕ}
    (h : range.1 + range.2 ≤ data.length) : (bytesAt data range).length = range.2 := by
  rw [bytesAt, List.length_take, List.length_drop]
  omega

/-! ### Streams of units -/

/-- What can stand as one unit in a stream: bytes with no start code inside them that a start
code can follow. -/
structure Nal where
  bytes : List UInt8
  ne_nil : bytes ≠ []
  noCode : ¬ [0, 0, 1] <:+: bytes
  last_ne_zero : bytes.getLast ne_nil ≠ 0

/-- A unit of a stream, and whether its start code has four bytes. -/
structure StreamUnit where
  long : Bool
  nal : Nal

/-- The first byte of a unit. -/
def Nal.header (nal : Nal) : UInt8 := nal.bytes.head nal.ne_nil

/-- `00 00 01` or `00 00 00 01` -/
def startCode (long : Bool) : List UInt8 := if long then [0, 0, 0, 1] else [0, 0, 1]

/-- The stream that carries the units. -/
def serialise : List StreamUnit → List UInt8
  | [] => []
  | u :: us => startCode u.long ++ (u.nal.bytes ++ serialise us)

/-- Where the units lie in a stream that starts at `start`. -/
def offsets (start : ℕ) : List StreamUnit → List (ℕ × ℕ)
  | [] => []
  | u :: us =>
      let first := start + (startCode u.long).length
      (first, u.nal.bytes.length) :: offsets (first + u.nal.bytes.length) us

theorem Nal.length_pos (nal : Nal) : 0 < nal.bytes.length := List.length_pos_iff.mpr nal.ne_nil

/-- **No start code begins in a unit.**  Whatever follows the unit, one that begins in it would lie
in it or take its last byte for a zero. -/
theorem Nal.not_code3At (nal : Nal) (pre rest : List UInt8) {k : ℕ} (hk : k < nal.bytes.length) :
    code3At (pre ++ (nal.bytes ++ rest)) (pre.length + k) = false := by
  have hget : ∀ j, j < nal.bytes.length →
      (pre ++ (nal.bytes ++ rest))[pre.length + j]? = nal.bytes[j]? := by
    intro j hj
    rw [List.getElem?_append_right (by omega), Nat.add_sub_cancel_left,
      List.getElem?_append_left hj]
  have hlast : nal.bytes[nal.bytes.length - 1]? ≠ some 0 := by
    rw [← List.getLast?_eq_getElem?, List.getLast?_eq_some_getLast nal.ne_nil]
    simpa using nal.last_ne_zero
  rw [Bool.eq_false_iff, Ne, code3At_iff]
  rintro ⟨h0, h1, h2⟩
  rw [hget k hk] at h0
  by_cases e1 : k + 1 = nal.bytes.length
  · exact hlast (by rw [← e1]; exact h0)
  rw [add_assoc, hget (k + 1) (by omega)] at h1
  by_cases e2 : k + 2 = nal.bytes.length
  · exact hlast (by rw [← e2]; exact h1)
  rw [add_assoc, hget (k + 2) (by omega)] at h2
  exact nal.noCode (infix_iff_code3At.mpr ⟨k, code3At_iff.mpr ⟨h0, h1, h2⟩⟩)

theorem Nal.not_code4At (nal : Nal) (pre rest : List UInt8) {k : ℕ} (hk : k < nal.bytes.length) :
    code4At (pre ++ (nal.bytes ++ rest)) (pre.length + k) = false := by
  rw [Bool.eq_false_iff, Ne, code4At_iff]
  rintro ⟨h0, h, h1⟩
  by_cases e : k + 1 = nal.bytes.length
  · -- the code's first zero would be the last byte of the unit
    have hlast := nal.last_ne_zero
    rw [List.getElem?_append_right (by omega), Nat.add_sub_cancel_left,
      List.getElem?_append_left hk, List.getElem?_eq_some_iff] at h0
    obtain ⟨_, h0⟩ := h0
    rw [List.getLast_eq_getElem] at hlast
    simp only [← e, Nat.add_sub_cancel] at hlast
    exact hlast h0
  · rw [add_assoc, nal.not_code3At pre rest (by omega)] at h
    exact absurd h (by decide)

/-- The scan passes over a unit. -/
theorem cut_nal (nal : Nal) (pre rest : List UInt8) (start : ℕ) (k : ℕ)
    (hk : k ≤ nal.bytes.length) :
    cut (pre ++ (nal.bytes ++ rest)) (pre.length + k) start =
      cut (pre ++ (nal.bytes ++ rest)) (pre.length + nal.bytes.length) start := by
  induction hn : nal.bytes.length - k generalizing k with
  | zero => rw [show k = nal.bytes.length by omega]
  | succ n ih =>
      rw [cut_skip _ (nal.not_code3At pre rest (by omega)) (nal.not_code4At pre rest (by omega)),
        add_assoc, ih (k + 1) (by omega) (by omega)]
      simp only [List.length_append]
      omega

theorem code3At_startCode (pre rest : List UInt8) :
    code3At (pre ++ (startCode false ++ rest)) pre.length = true := by
  simp [code3At_iff, startCode]

theorem code4At_startCode (pre rest : List UInt8) :
    code4At (pre ++ (startCode true ++ rest)) pre.length = true := by
  simp [code4At, startCode]

/-- The scan, at a start code, closes the unit it was in and goes on after the code. -/
theorem cut_startCode (long : Bool) (pre rest : List UInt8) (start : ℕ) :
    cut (pre ++ (startCode long ++ rest)) pre.length start =
      (start, pre.length - start) ::
        cut (pre ++ (startCode long ++ rest)) (pre.length + (startCode long).length)
          (pre.length + (startCode long).length) := by
  cases long with
  | false => exact cut_code3 (code3At_startCode pre rest)
  | true => exact cut_code4 (code4At_startCode pre rest)

theorem firstUnit_startCode (long : Bool) (pre rest : List UInt8) :
    firstUnit (pre ++ (startCode long ++ rest)) pre.length =
      some (pre.length + (startCode long).length) := by
  cases long with
  | false => exact firstUnit_code3 (code3At_startCode pre rest)
  | true => exact firstUnit_code4 (code4At_startCode pre rest)

/-- From the first byte of a unit, the scan cuts out that unit and the ones after it. -/
theorem cut_serialise (nal : Nal) (pre : List UInt8) (us : List StreamUnit) :
    cut (pre ++ (nal.bytes ++ serialise us)) pre.length pre.length =
      (pre.length, nal.bytes.length) :: offsets (pre.length + nal.bytes.length) us := by
  induction us generalizing nal pre with
  | nil =>
      rw [← Nat.add_zero pre.length, cut_nal nal pre _ _ 0 (Nat.zero_le _), cut_end]
      · simp [serialise, offsets]
      · simp [serialise]
  | cons u us ih =>
      have hpass := cut_nal nal pre (serialise (u :: us)) pre.length 0 (Nat.zero_le _)
      rw [Nat.add_zero] at hpass
      rw [hpass, serialise, ← List.append_assoc, ← List.length_append, cut_startCode,
        ← List.length_append, ← List.append_assoc (pre ++ nal.bytes), ih]
      simp only [offsets, List.length_append, Nat.add_sub_cancel_left]

/-- Every unit lies where it is said to, and there is something of it. -/
theorem length_pos_of_mem_offsets {start : ℕ} {us : List StreamUnit} {range : ℕ × ℕ}
    (h : range ∈ offsets start us) : 0 < range.2 := by
  induction us generalizing start with
  | nil => simp [offsets] at h
  | cons u us ih =>
      rcases List.mem_cons.mp h with rfl | h
      · exact u.nal.length_pos
      · exact ih h

theorem map_bytesAt_offsets (pre : List UInt8) (us : List StreamUnit) :
    (offsets pre.length us).map (bytesAt (pre ++ serialise us)) = us.map (·.nal.bytes) := by
  induction us generalizing pre with
  | nil => rfl
  | cons u us ih =>
      have h := ih (pre ++ (startCode u.long ++ u.nal.bytes))
      simp only [List.length_append, List.append_assoc, ← Nat.add_assoc] at h
      simp only [offsets, serialise, List.map_cons, h, List.cons.injEq, and_true, bytesAt]
      rw [← List.append_assoc pre, ← List.length_append, List.drop_left, List.take_left]

theorem header_eq_getD (nal : Nal) : nal.header = nal.bytes.getD 0 0 := by
  obtain ⟨b, rest, hbytes⟩ := List.exists_cons_of_ne_nil nal.ne_nil
  simp [Nal.header, hbytes]

/-- A range that is not empty starts with its first byte. -/
theorem getD_bytesAt {data : List UInt8} {range : ℕ × ℕ} (h : 0 < range.2) :
    (bytesAt data range).getD 0 0 = data.getD range.1 0 := by
  simp [bytesAt, List.getD_eq_getElem?_getD, h]

theorem map_getD_offsets (us : List StreamUnit) :
    (offsets 0 us).map (fun range => (serialise us).getD range.1 0) =
      us.map (·.nal.header) := by
  have hbytes := map_bytesAt_offsets [] us
  rw [List.nil_append, List.length_nil] at hbytes
  have hfirst : (offsets 0 us).map (fun range => (serialise us).getD range.1 0) =
      ((offsets 0 us).map (bytesAt (serialise us))).map (·.getD 0 0) := by
    rw [List.map_map]
    exact List.map_congr_left fun range h => (getD_bytesAt (length_pos_of_mem_offsets h)).symm
  rw [hfirst, hbytes, List.map_map]
  exact List.map_congr_left fun u _ => (header_eq_getD u.nal).symm

/-- **What a stream carries is found in it**, each unit where it lies. -/
theorem nalRanges_serialise (us : List StreamUnit) :
    nalRanges (serialise us) = offsets 0 us := by
  cases us with
  | nil => simp [nalRanges, firstUnit, serialise, offsets]
  | cons u us =>
      have hfirst := firstUnit_startCode u.long [] (u.nal.bytes ++ serialise us)
      have hcut := cut_serialise u.nal (startCode u.long) us
      have hkeep : (offsets 0 (u :: us)).filter (·.2 ≠ 0) = offsets 0 (u :: us) := by
        rw [List.filter_eq_self]
        intro range h
        have := length_pos_of_mem_offsets h
        simp only [decide_eq_true_eq]
        omega
      rw [← hkeep]
      simp only [List.nil_append, List.length_nil, Nat.zero_add] at hfirst
      simp only [nalRanges, serialise, hfirst, hcut, offsets, Nat.zero_add]

end AnnexB
