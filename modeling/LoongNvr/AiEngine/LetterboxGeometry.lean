import LoongNvr.AiEngine.InferenceEngine
import LoongNvr.AiEngine.Suppression
import Mathlib.Algebra.Order.Floor.Ring
import Mathlib.Data.Rat.Floor
import Mathlib.Tactic.Linarith
import Mathlib.Tactic.Ring

/-!
# AI engine — LetterboxGeometry

Whether `LetterboxResize` leaves a picture to resize to, and `PostProcess` finds its way back.

* `padded_inside`: the padded rectangle always lies inside the input square.
* `roundTrip`: a box that the output holds where the letterbox put it is returned as it was.
* `fits_iff`: neither side of the resized picture is cut to nothing exactly if the longer side is at
  most as many times the shorter as the input size is large.
-/

namespace LoongNvr.AiEngine
open LoongNvr.Core Support

/-- What is not negative is truncated downwards. -/
theorem truncate_eq_floor {x : ℚ} (h : 0 ≤ x) : truncate x = ⌊x⌋ := by
  rw [truncate, Int.tdiv_eq_ediv_of_nonneg (Rat.num_nonneg.mpr h), ← Rat.floor_def]
  rfl

namespace YoloAdapter

/-! ### The resized picture -/

/-- `new_w` and `new_h` are from 1 to the input size. -/
def Fits (a : YoloAdapter) (width height : ℤ) : Prop :=
  (1 ≤ (a.scaledSize width height).1 ∧ (a.scaledSize width height).1 ≤ a.inputSize) ∧
    1 ≤ (a.scaledSize width height).2 ∧ (a.scaledSize width height).2 ≤ a.inputSize

/-- The padded rectangle lies inside the input square. -/
def Inside (a : YoloAdapter) (width height : ℤ) : Prop :=
  (0 ≤ (a.letterbox width height).padX ∧
      (a.letterbox width height).padX + (a.scaledSize width height).1 ≤ a.inputSize) ∧
    0 ≤ (a.letterbox width height).padY ∧
      (a.letterbox width height).padY + (a.scaledSize width height).2 ≤ a.inputSize

/-- One side of the resized picture. -/
theorem truncate_side (a : YoloAdapter) {side longest : ℤ} (hside : 0 < side)
    (hle : side ≤ longest) :
    0 ≤ truncate (side * (a.inputSize / (longest : ℚ))) ∧
      truncate (side * (a.inputSize / (longest : ℚ))) ≤ a.inputSize ∧
      (1 ≤ truncate (side * (a.inputSize / (longest : ℚ))) ↔ longest ≤ a.inputSize * side) := by
  have hpos : (0 : ℚ) < side := Int.cast_pos.mpr hside
  have hlong : (0 : ℚ) < longest := Int.cast_pos.mpr (hside.trans_le hle)
  have hle' : (side : ℚ) ≤ longest := Int.cast_le.mpr hle
  have hsize : (0 : ℚ) ≤ a.inputSize := Nat.cast_nonneg _
  have hnonneg : 0 ≤ side * (a.inputSize / (longest : ℚ)) :=
    mul_nonneg hpos.le (div_nonneg hsize hlong.le)
  have hmost : side * (a.inputSize / (longest : ℚ)) ≤ a.inputSize := by
    rw [mul_div_assoc', div_le_iff₀ hlong, mul_comm]
    exact mul_le_mul_of_nonneg_left hle' hsize
  rw [truncate_eq_floor hnonneg]
  refine ⟨Int.floor_nonneg.mpr hnonneg, ?_, ?_⟩
  · have hfloor := (Int.floor_le (side * (a.inputSize / (longest : ℚ)))).trans hmost
    exact_mod_cast hfloor
  · rw [Int.le_floor, Int.cast_one, mul_div_assoc', le_div_iff₀ hlong, one_mul, mul_comm]
    norm_cast

section

variable (a : YoloAdapter) {width height : ℤ}

theorem scaledSize_eq (hw : 1 ≤ width) (hh : 1 ≤ height) :
    a.scaledSize width height =
      (truncate (width * (a.inputSize / ((max width height : ℤ) : ℚ))),
        truncate (height * (a.inputSize / ((max width height : ℤ) : ℚ)))) := by
  rw [scaledSize, letterboxScale_eq a hw hh]

/-- **Neither side is cut to nothing**, exactly if the picture is not too thin. -/
theorem fits_iff (hw : 1 ≤ width) (hh : 1 ≤ height) :
    a.Fits width height ↔ max width height ≤ a.inputSize * min width height := by
  obtain ⟨-, hmostW, hleastW⟩ := a.truncate_side hw (le_max_left width height)
  obtain ⟨-, hmostH, hleastH⟩ := a.truncate_side hh (le_max_right width height)
  have hboth : (max width height ≤ a.inputSize * width ∧
      max width height ≤ a.inputSize * height) ↔
        max width height ≤ a.inputSize * min width height := by
    rw [mul_min_of_nonneg _ _ (Int.natCast_nonneg _), le_min_iff]
  rw [Fits, scaledSize_eq a hw hh, hleastW, hleastH, ← hboth]
  exact and_congr (and_iff_left hmostW) (and_iff_left hmostH)

/-- **The padded rectangle** lies inside the square, also where it is empty. -/
theorem padded_inside (hw : 1 ≤ width) (hh : 1 ≤ height) : a.Inside width height := by
  have hhalf : ∀ {size new : ℤ}, 0 ≤ new → new ≤ size →
      0 ≤ (size - new).tdiv 2 ∧ (size - new).tdiv 2 + new ≤ size := by
    intro size new hnonneg hle
    rw [Int.tdiv_eq_ediv_of_nonneg (by omega)]
    omega
  obtain ⟨hnonnegW, hmostW, -⟩ := a.truncate_side hw (le_max_left width height)
  obtain ⟨hnonnegH, hmostH, -⟩ := a.truncate_side hh (le_max_right width height)
  rw [Inside, letterbox, scaledSize_eq a hw hh]
  exact ⟨hhalf hnonnegW hmostW, hhalf hnonnegH hmostH⟩

end

/-! ### The output -/

/-- The k-th number the output has for a box: rows for v5, columns for v8. -/
def featureAt (a : YoloAdapter) (data : List ℚ) (dim2 i k : ℕ) : ℚ :=
  match a.version with
  | .v5 => data.getD (i * dim2 + k) 0
  | .v8 => data.getD (k * dim2 + i) 0

/-- How many boxes the output has room for. -/
def boxCount (a : YoloAdapter) (dim1 dim2 : ℕ) : ℕ :=
  match a.version with
  | .v5 => dim1
  | .v8 => dim2

/-- The class and the score of a box. -/
def scored (a : YoloAdapter) (data : List ℚ) (dim1 dim2 i : ℕ) : ℤ × ℚ :=
  match a.version with
  | .v5 =>
      let (best, bestScore) := bestClass ((List.range (dim2 - 5)).map fun c =>
        a.featureAt data dim2 i (5 + c))
      (best, a.featureAt data dim2 i 4 * bestScore)
  | .v8 => bestClass ((List.range (dim1 - 4)).map fun c => a.featureAt data dim2 i (4 + c))

/-- Is a box counted?  With v5 its objectness must reach the threshold too. -/
def Reaches (a : YoloAdapter) (threshold : ℚ) (data : List ℚ) (dim1 dim2 i : ℕ) : Prop :=
  match a.version with
  | .v5 => threshold ≤ a.featureAt data dim2 i 4 ∧ threshold ≤ (a.scored data dim1 dim2 i).2
  | .v8 => threshold ≤ (a.scored data dim1 dim2 i).2

/-- The detection of a box. -/
def boxAt (a : YoloAdapter) (lb : Letterbox) (width height : ℤ) (data : List ℚ)
    (dim1 dim2 i : ℕ) : Detection :=
  boxDetection lb width height (a.featureAt data dim2 i 0) (a.featureAt data dim2 i 1)
    (a.featureAt data dim2 i 2) (a.featureAt data dim2 i 3) (a.scored data dim1 dim2 i).2
    (a.scored data dim1 dim2 i).1

/-- What a turn of the loop over the boxes makes of one. -/
def candidateAt (a : YoloAdapter) (lb : Letterbox) (width height : ℤ) (threshold : ℚ)
    (data : List ℚ) (dim1 dim2 i : ℕ) : Option Detection :=
  match a.version with
  | .v5 => candidateV5 lb width height threshold data dim2 i
  | .v8 => candidateV8 lb width height threshold data dim1 dim2 i

theorem candidates_eq (a : YoloAdapter) (lb : Letterbox) (width height : ℤ) (threshold : ℚ)
    (data : List ℚ) (dim1 dim2 : ℕ) :
    a.candidates lb width height threshold data dim1 dim2 =
      (List.range (a.boxCount dim1 dim2)).filterMap
        (a.candidateAt lb width height threshold data dim1 dim2) := by
  obtain ⟨version, inputSize, hsize⟩ := a
  cases version <;> rfl

section

variable {a : YoloAdapter} {lb : Letterbox} {width height : ℤ} {threshold : ℚ} {data : List ℚ}
  {dim1 dim2 i : ℕ}

theorem candidateAt_eq_v5 (hversion : a.version = .v5) :
    a.candidateAt lb width height threshold data dim1 dim2 i =
      if a.featureAt data dim2 i 4 < threshold then none
      else if (a.scored data dim1 dim2 i).2 < threshold then none
      else some (a.boxAt lb width height data dim1 dim2 i) := by
  obtain ⟨version, inputSize, hsize⟩ := a
  obtain rfl : version = .v5 := hversion
  have hscores : ((List.range (dim2 - 5)).map fun c => data.getD (i * dim2 + 5 + c) 0) =
      (List.range (dim2 - 5)).map fun c => data.getD (i * dim2 + (5 + c)) 0 :=
    List.map_congr_left fun c _ => by rw [Nat.add_assoc]
  unfold candidateAt candidateV5
  dsimp only
  rw [hscores]
  rfl

theorem candidateAt_eq_v8 (hversion : a.version = .v8) :
    a.candidateAt lb width height threshold data dim1 dim2 i =
      if (a.scored data dim1 dim2 i).2 < threshold then none
      else some (a.boxAt lb width height data dim1 dim2 i) := by
  obtain ⟨version, inputSize, hsize⟩ := a
  obtain rfl : version = .v8 := hversion
  rfl

theorem candidateAt_of_reaches (h : a.Reaches threshold data dim1 dim2 i) :
    a.candidateAt lb width height threshold data dim1 dim2 i =
      some (a.boxAt lb width height data dim1 dim2 i) := by
  unfold Reaches at h
  cases hversion : a.version with
  | v5 =>
      rw [hversion] at h
      rw [candidateAt_eq_v5 hversion, if_neg (not_lt.mpr h.1), if_neg (not_lt.mpr h.2)]
  | v8 =>
      rw [hversion] at h
      rw [candidateAt_eq_v8 hversion, if_neg (not_lt.mpr h)]

theorem candidateAt_of_not_reaches (h : ¬ a.Reaches threshold data dim1 dim2 i) :
    a.candidateAt lb width height threshold data dim1 dim2 i = none := by
  unfold Reaches at h
  cases hversion : a.version with
  | v5 =>
      rw [hversion] at h
      rw [candidateAt_eq_v5 hversion]
      split
      · rfl
      · next hobj =>
          rw [if_pos]
          exact not_le.mp fun hscore => h ⟨not_lt.mp hobj, hscore⟩
  | v8 =>
      rw [hversion] at h
      rw [candidateAt_eq_v8 hversion, if_pos (not_le.mp h)]

end

/-- An output that holds a letterboxed box, and no other box that is counted. -/
structure HoldsBox (a : YoloAdapter) (lb : Letterbox) (threshold : ℚ) (data : List ℚ)
    (dim1 dim2 i : ℕ) (box : Detection) : Prop where
  index : i < a.boxCount dim1 dim2
  centerX : a.featureAt data dim2 i 0 =
    ((box.x1 * lb.scaleX + lb.padX) + (box.x2 * lb.scaleX + lb.padX)) / 2
  centerY : a.featureAt data dim2 i 1 =
    ((box.y1 * lb.scaleY + lb.padY) + (box.y2 * lb.scaleY + lb.padY)) / 2
  width : a.featureAt data dim2 i 2 =
    (box.x2 * lb.scaleX + lb.padX) - (box.x1 * lb.scaleX + lb.padX)
  height : a.featureAt data dim2 i 3 =
    (box.y2 * lb.scaleY + lb.padY) - (box.y1 * lb.scaleY + lb.padY)
  scored : a.scored data dim1 dim2 i = (box.classId, box.confidence)
  reaches : a.Reaches threshold data dim1 dim2 i
  alone : ∀ j < a.boxCount dim1 dim2, j ≠ i → ¬ a.Reaches threshold data dim1 dim2 j

/-- A box inside the picture. -/
structure InPicture (width height : ℤ) (box : Detection) : Prop where
  left : 0 ≤ box.x1
  wide : box.x1 ≤ box.x2
  right : box.x2 ≤ width
  top : 0 ≤ box.y1
  high : box.y1 ≤ box.y2
  bottom : box.y2 ≤ height

/-- `PostProcess` returns exactly the box that the output holds, without a class name. -/
def RoundTrip (a : YoloAdapter) (width height : ℤ) : Prop :=
  ∀ (srt : DetectionSorter) (threshold nms : ℚ) (output : Tensor ℚ) (batch dim1 dim2 : ℕ)
    (rest : List ℕ) (i : ℕ) (box : Detection), output.shape = batch :: dim1 :: dim2 :: rest →
    InPicture width height box →
    HoldsBox a (a.letterbox width height) threshold output.data dim1 dim2 i box →
      a.postProcess srt (a.letterbox width height) output width height threshold nms =
        some [{ box with className := "" }]

theorem filterMap_range_single {α : Type*} {f : ℕ → Option α} {n i : ℕ} {x : α} (hi : i < n)
    (hx : f i = some x) (hnone : ∀ j < n, j ≠ i → f j = none) :
    (List.range n).filterMap f = [x] := by
  obtain ⟨k, rfl⟩ := Nat.exists_eq_add_of_lt hi
  have hbefore : (List.range i).filterMap f = [] := by
    refine List.filterMap_eq_nil_iff.mpr fun j hj => ?_
    have hlt := List.mem_range.mp hj
    exact hnone j (by omega) (by omega)
  have hafter : ((List.range k).map (i + 1 + ·)).filterMap f = [] := by
    refine List.filterMap_eq_nil_iff.mpr fun j hj => ?_
    obtain ⟨m, hm, rfl⟩ := List.mem_map.mp hj
    have hlt := List.mem_range.mp hm
    exact hnone _ (by omega) (by omega)
  rw [show i + k + 1 = i + 1 + k by omega, List.range_add, List.filterMap_append, List.range_succ,
    List.filterMap_append, hbefore, hafter]
  simp [hx]

/-- **A letterboxed box comes back.** -/
theorem roundTrip (a : YoloAdapter) {width height : ℤ} (hw : 1 ≤ width) (hh : 1 ≤ height) :
    a.RoundTrip width height := by
  intro srt threshold nms output batch dim1 dim2 rest i box hshape hbox hholds
  have hscale : a.letterboxScale width height ≠ 0 := (letterboxScale_pos a hw hh).ne'
  have hone : a.boxAt (a.letterbox width height) width height output.data dim1 dim2 i =
      { box with className := "" } := by
    have hlow : ∀ p q : ℚ, (p + q) / 2 - (q - p) / 2 = p := fun p q => by ring
    have hhigh : ∀ p q : ℚ, (p + q) / 2 + (q - p) / 2 = q := fun p q => by ring
    rw [boxAt, boxDetection, hholds.centerX, hholds.centerY, hholds.width, hholds.height,
      hholds.scored, hlow, hlow, hhigh, hhigh]
    simp only [letterbox]
    rw [mapBack_own _ hscale hbox.left (hbox.wide.trans hbox.right),
      mapBack_own _ hscale hbox.top (hbox.high.trans hbox.bottom),
      mapBack_own _ hscale (hbox.left.trans hbox.wide) hbox.right,
      mapBack_own _ hscale (hbox.top.trans hbox.high) hbox.bottom]
  have hcandidates : a.candidates (a.letterbox width height) width height threshold output.data
      dim1 dim2 = [{ box with className := "" }] := by
    rw [candidates_eq]
    refine filterMap_range_single hholds.index ?_ fun j hj hne =>
      candidateAt_of_not_reaches (hholds.alone j hj hne)
    rw [candidateAt_of_reaches hholds.reaches, hone]
  rw [postProcess, hshape]
  dsimp only
  rw [hcandidates, applyNms_singleton]

/-- **The letterbox is right** exactly for the pictures that are not too thin. -/
theorem letterbox_right_iff (a : YoloAdapter) {width height : ℤ} (hw : 1 ≤ width)
    (hh : 1 ≤ height) :
    a.Fits width height ∧ a.Inside width height ∧ a.RoundTrip width height ↔
      max width height ≤ a.inputSize * min width height := by
  rw [← a.fits_iff hw hh]
  exact ⟨fun h => h.1, fun h => ⟨h, a.padded_inside hw hh, a.roundTrip hw hh⟩⟩

/-- A picture of full resolution. -/
theorem letterbox_right_fullHd :
    (standardAdapter .v8).Fits 1920 1080 ∧ (standardAdapter .v8).Inside 1920 1080 ∧
      (standardAdapter .v8).RoundTrip 1920 1080 :=
  ((standardAdapter .v8).letterbox_right_iff (by decide) (by decide)).mpr (by decide)

/-- A crop of 1300 by 2 pixels is to be resized to 640 by 0. -/
theorem letterbox_refuted :
    ¬ ∀ (a : YoloAdapter) (width height : ℤ), 1 ≤ width → 1 ≤ height →
      a.Fits width height ∧ a.Inside width height ∧ a.RoundTrip width height := by
  intro h
  obtain ⟨⟨-, hleast, -⟩, -⟩ := h (standardAdapter .v8) 1300 2 (by decide) (by decide)
  have hnone : ((standardAdapter .v8).scaledSize 1300 2).2 = 0 := by decide +kernel
  rw [hnone] at hleast
  exact absurd hleast (by decide)

end YoloAdapter

end LoongNvr.AiEngine
