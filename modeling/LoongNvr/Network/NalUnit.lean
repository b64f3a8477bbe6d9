import LoongNvr.Support.AnnexB
import LoongNvr.Support.Bmff

/-!
# Network — NalUnit

What the FLV and the fMP4 muxer do alike with an Annex B buffer: the scan for start codes and the
length-prefixed copy of the units found.  Each muxer passes its own way to close a unit and its own
units to leave out.

* `lengthPrefixed_eq`: the copy holds each unit kept, behind its size.
* `splitLengths_lengthPrefixed`: the units are read back from the copy.
* `scanLoop_eq`: the scan finds the units between the start codes, as `nalRanges` has them.
-/

namespace LoongNvr.Network
open Support AnnexB

/-- A NAL unit of a buffer: `data` is kept as its position there. -/
structure NalUnit where
  start : ℕ
  size : ℕ
  type : UInt8
  deriving DecidableEq, Repr

/-- The bytes from `unit.data` to `unit.data + unit.size`. -/
def NalUnit.bytes (data : List UInt8) (unit : NalUnit) : List UInt8 :=
  bytesAt data (unit.start, unit.size)

def NalUnit.range (unit : NalUnit) : ℕ × ℕ := (unit.start, unit.size)

/-- `start_code_len`, which is 0 where `is_start_code` is not set. -/
def startCodeLen (data : List UInt8) (i : ℕ) : ℕ :=
  if i + 2 < data.length ∧ code3At data i then 3
  else if i + 3 < data.length ∧ code4At data i then 4
  else 0

/-- The loop of `ParseAnnexB` and what follows it; `close start i` is the unit from `start` to `i`
that is pushed there, if one is. -/
def scanLoop (close : ℕ → ℕ → Option NalUnit) (data : List UInt8) (i nalStart : ℕ)
    (foundStart : Bool) : List NalUnit :=
  if i < data.length then
    if startCodeLen data i ≠ 0 then
      (if foundStart then (close nalStart i).toList else []) ++
        scanLoop close data (i + startCodeLen data i) (i + startCodeLen data i) true
    else scanLoop close data (i + 1) nalStart foundStart
  else if foundStart then (close nalStart data.length).toList else []
  termination_by data.length - i

/-- The loop of `AnnexBToAvcc` and `AnnexBToMp4`: each unit behind its size, but for those to
`skip`. -/
def lengthPrefixed (skip : NalUnit → Bool) (data : List UInt8) : List NalUnit → List UInt8
  | [] => []
  | unit :: units =>
      if skip unit then lengthPrefixed skip data units
      else writeU32 (UInt32.ofNat unit.size) ++ (unit.bytes data ++ lengthPrefixed skip data units)

/-! ### The copy -/

/-- The copy holds each unit kept, behind its size. -/
theorem lengthPrefixed_eq {skip : NalUnit → Bool} {data : List UInt8} {units : List NalUnit}
    (hsize : ∀ unit ∈ units, (unit.bytes data).length = unit.size)
    (hfits : (lengthPrefixed skip data units).length < 2 ^ 32) :
    lengthPrefixed skip data units =
      ((units.filter (!skip ·)).map (·.bytes data)).flatMap fun bs => be 4 bs.length ++ bs := by
  induction units with
  | nil => rfl
  | cons unit units ih =>
      have hsizes := fun u hu => hsize u (List.mem_cons_of_mem _ hu)
      by_cases e : skip unit = true
      · rw [lengthPrefixed, if_pos e] at hfits ⊢
        rw [ih hsizes hfits, List.filter_cons_of_neg (by simp [e])]
      · have hunit := hsize unit List.mem_cons_self
        rw [lengthPrefixed, if_neg e] at hfits ⊢
        simp only [List.length_append, hunit] at hfits
        have hword : writeU32 (UInt32.ofNat unit.size) = be 4 (unit.bytes data).length := by
          rw [writeU32_eq, UInt32.toNat_ofNat', Nat.mod_eq_of_lt (by omega), hunit]
        rw [ih hsizes (by omega), hword, List.filter_cons_of_pos (by simp [e]), List.map_cons,
          List.flatMap_cons, List.append_assoc]

theorem length_lengthPrefixed {skip : NalUnit → Bool} {data : List UInt8} {units : List NalUnit} :
    (lengthPrefixed skip data units).length =
      ((units.filter (!skip ·)).map fun unit => 4 + (unit.bytes data).length).sum := by
  induction units with
  | nil => rfl
  | cons unit units ih =>
      by_cases e : skip unit = true
      · simp [lengthPrefixed, e, ih]
      · simp [lengthPrefixed, e, ih, writeU32]
        omega

/-- **The units are read back** from the copy, if it is short enough for the sizes in it. -/
theorem splitLengths_lengthPrefixed {skip : NalUnit → Bool} {data : List UInt8}
    {units : List NalUnit} (hsize : ∀ unit ∈ units, (unit.bytes data).length = unit.size)
    (hfits : (lengthPrefixed skip data units).length < 2 ^ 32) :
    Bmff.splitLengths (lengthPrefixed skip data units) =
      some ((units.filter (!skip ·)).map (·.bytes data)) := by
  have hcopy := lengthPrefixed_eq hsize hfits
  rw [hcopy, Bmff.splitLengths_flatMap]
  -- no unit is longer than the copy that holds it
  intro bs hbs
  have hpart := (List.sublist_flatten_of_mem
    (List.mem_map_of_mem (f := fun bs => be 4 bs.length ++ bs) hbs)).length_le
  rw [← List.flatMap_def, ← hcopy] at hpart
  simp only [List.length_append, length_be] at hpart
  omega

/-- The units of a stream lie in it. -/
theorem length_bytes_of_mem {unitOf : ℕ × ℕ → NalUnit} {data : List UInt8} {unit : NalUnit}
    (hrange : ∀ range, (unitOf range).range = range)
    (h : unit ∈ (nalRanges data).map unitOf) : (unit.bytes data).length = unit.size := by
  obtain ⟨range, hmem, rfl⟩ := List.mem_map.mp h
  have hstart : (unitOf range).start = range.1 := congrArg Prod.fst (hrange range)
  have hsize : (unitOf range).size = range.2 := congrArg Prod.snd (hrange range)
  rw [NalUnit.bytes, hstart, hsize, length_bytesAt (le_of_mem_nalRanges hmem)]

/-- There is a copy exactly when there is a unit to keep. -/
theorem lengthPrefixed_eq_nil_iff {skip : NalUnit → Bool} {data : List UInt8}
    {units : List NalUnit} :
    lengthPrefixed skip data units = [] ↔ units.filter (!skip ·) = [] := by
  induction units with
  | nil => simp [lengthPrefixed]
  | cons unit units ih =>
      by_cases e : skip unit = true
      · simp [lengthPrefixed, e, ih]
      · simp [lengthPrefixed, e, writeU32]

/-! ### The scan -/

theorem startCodeLen_code3 {data : List UInt8} {i : ℕ} (h : code3At data i = true) :
    startCodeLen data i = 3 := if_pos ⟨lt_of_code3At h, h⟩

theorem startCodeLen_code4 {data : List UInt8} {i : ℕ} (h : code4At data i = true) :
    startCodeLen data i = 4 := by
  rw [startCodeLen, if_neg (by simp [not_code3At_of_code4At h]), if_pos ⟨lt_of_code4At h, h⟩]

theorem startCodeLen_none {data : List UInt8} {i : ℕ} (h3 : ¬ code3At data i = true)
    (h4 : ¬ code4At data i = true) : startCodeLen data i = 0 := by
  rw [startCodeLen, if_neg (by simp [h3]), if_neg (by simp [h4])]

section Scan

variable {close : ℕ → ℕ → Option NalUnit} {unitOf : ℕ × ℕ → NalUnit}
  (hclose : ∀ start i, close start i = if start < i then some (unitOf (start, i - start)) else none)

include hclose in
/-- After a first start code, the scan pushes what `cut` cuts out, where it is not empty. -/
theorem scanLoop_found (data : List UInt8) (i start : ℕ) :
    scanLoop close data i start true =
      ((cut data i start).filter (·.2 ≠ 0)).map unitOf := by
  have hpush : ∀ (start i : ℕ) (rest : List (ℕ × ℕ)),
      (((start, i - start) :: rest).filter (·.2 ≠ 0)).map unitOf =
        (close start i).toList ++ (rest.filter (·.2 ≠ 0)).map unitOf := by
    intro start i rest
    by_cases e : start < i
    · have hsize : i - start ≠ 0 := by omega
      simp [hclose, e, hsize]
    · have hsize : i - start = 0 := by omega
      simp [hclose, e, hsize]
  fun_induction cut data i start with
  | case1 i start hi h3 ih =>
      rw [scanLoop, if_pos hi, startCodeLen_code3 h3, if_pos (by decide), if_pos rfl, ih, hpush]
  | case2 i start hi h3 h4 ih =>
      rw [scanLoop, if_pos hi, startCodeLen_code4 h4, if_pos (by decide), if_pos rfl, ih, hpush]
  | case3 i start hi h3 h4 ih =>
      rw [scanLoop, if_pos hi, startCodeLen_none h3 h4, if_neg (by decide), ih]
  | case4 i start hi =>
      rw [scanLoop, if_neg hi, if_pos rfl, hpush]
      simp

include hclose in
/-- **The scan finds the units of the stream.** -/
theorem scanLoop_eq (data : List UInt8) :
    scanLoop close data 0 0 false = (nalRanges data).map unitOf := by
  suffices h : ∀ i start, scanLoop close data i start false =
      ((firstUnit data i).map fun p => ((cut data p p).filter (·.2 ≠ 0)).map unitOf).getD [] by
    rw [h, nalRanges]
    cases firstUnit data 0 <;> rfl
  intro i start
  fun_induction firstUnit data i with
  | case1 i hi h3 =>
      rw [scanLoop, if_pos hi, startCodeLen_code3 h3, if_pos (by decide), if_neg (by decide),
        List.nil_append, scanLoop_found hclose, Option.map_some, Option.getD_some]
  | case2 i hi h3 h4 =>
      rw [scanLoop, if_pos hi, startCodeLen_code4 h4, if_pos (by decide), if_neg (by decide),
        List.nil_append, scanLoop_found hclose, Option.map_some, Option.getD_some]
  | case3 i hi h3 h4 ih =>
      rw [scanLoop, if_pos hi, startCodeLen_none h3 h4, if_neg (by decide), ih]
  | case4 i hi =>
      rw [scanLoop, if_neg hi, if_neg (by decide), Option.map_none, Option.getD_none]

end Scan

end LoongNvr.Network
