import LoongNvr.AiEngine.ModelCascade
import LoongNvr.AiEngine.LetterboxGeometry

/-!
# AI engine — CropGeometry

What `ModelCascade::CropRoi` cuts out of a picture, and where `RunCrop` puts what is found there.
The crop starts on a whole pixel; the sub-detections are moved by the edge before it was cut to one.
Truncation has no bound: with coordinates below 2³⁰ an expanded edge can be near 3 · 2³⁰, where
C++ leaves the conversion to `int` undefined, and it is taken to be the whole number there too.

* `cropRoi_cropOf`: a crop holds the pixels of its rectangle, which lies inside the picture.
* `overhang_iff`: when a box across the whole crop is stored within the picture, along one side.
* `crops_map_back_iff`: what is stored lies inside the picture exactly if that holds of every crop.
-/

namespace LoongNvr.AiEngine
open LoongNvr.Core Support

/-! ### Pixels -/

/-- A byte of a picture: column, row, channel. -/
def pixelAt (image : Image) (x y channel : ℕ) : Option UInt8 :=
  image.data[(y * image.width.toNat + x) * 3 + channel]?

/-- A place in rows of one length. -/
theorem getElem?_flatMap_range {α : Type*} (f : ℕ → List α) {h n : ℕ}
    (hlength : ∀ r < h, (f r).length = n) {r k : ℕ} (hr : r < h) (hk : k < n) :
    ((List.range h).flatMap f)[r * n + k]? = (f r)[k]? := by
  induction h with
  | zero => exact absurd hr (Nat.not_lt_zero r)
  | succ h ih =>
      have htotal : ((List.range h).flatMap f).length = h * n := by
        rw [List.length_flatMap, List.map_congr_left fun r hr =>
          hlength r (Nat.lt_succ_of_lt (List.mem_range.mp hr))]
        simp
      rw [List.range_succ, List.flatMap_append, List.flatMap_singleton]
      rcases Nat.lt_succ_iff_lt_or_eq.mp hr with hlt | rfl
      · have hrow : (r + 1) * n ≤ h * n := Nat.mul_le_mul_right _ hlt
        rw [add_mul, one_mul] at hrow
        rw [List.getElem?_append_left (by omega)]
        exact ih (fun r hr => hlength r (Nat.lt_succ_of_lt hr)) hlt
      · rw [List.getElem?_append_right (by omega), htotal, Nat.add_sub_cancel_left]

theorem pixelAt_cropBytes {image : Image} {left top cropWidth cropHeight : ℤ} (hleft : 0 ≤ left)
    (htop : 0 ≤ top) (hwidth : 0 < cropWidth) (hright : left + cropWidth ≤ image.width)
    (hbottom : top + cropHeight ≤ image.height) {x y channel : ℕ} (hx : x < cropWidth.toNat)
    (hy : y < cropHeight.toNat) (hchannel : channel < 3) :
    (cropBytes image left top cropWidth cropHeight)[(y * cropWidth.toNat + x) * 3 + channel]? =
      pixelAt image (left.toNat + x) (top.toNat + y) channel := by
  have hlength : ∀ row < cropHeight.toNat,
      ((image.data.drop (((top.toNat + row) * image.width.toNat + left.toNat) * 3)).take
        (cropWidth.toNat * 3)).length = cropWidth.toNat * 3 := by
    intro row hrow
    have hfits := cropRow_fits hleft htop hwidth hright hbottom hrow
    rw [List.length_take, List.length_drop]
    omega
  have hplace : (y * cropWidth.toNat + x) * 3 + channel =
      y * (cropWidth.toNat * 3) + (x * 3 + channel) := by ring
  have hcolumn : x * 3 + channel < cropWidth.toNat * 3 := by omega
  rw [cropBytes, hplace, getElem?_flatMap_range _ hlength hy hcolumn,
    List.getElem?_take_of_lt hcolumn, List.getElem?_drop, pixelAt]
  congr 1
  ring

/-- The crop is the rectangle of its size at this corner, which lies inside the picture, and no byte
outside the picture is read for it. -/
structure CropOf (image crop : Image) (cx1 cy1 : ℤ) : Prop where
  left : 0 ≤ cx1
  top : 0 ≤ cy1
  right : cx1 + crop.width ≤ image.width
  bottom : cy1 + crop.height ≤ image.height
  reads : ∀ row < crop.height.toNat,
    ((cy1.toNat + row) * image.width.toNat + cx1.toNat) * 3 + crop.width.toNat * 3 ≤
      image.data.length
  pixels : ∀ x y channel : ℕ, x < crop.width.toNat → y < crop.height.toNat → channel < 3 →
    pixelAt crop x y channel = pixelAt image (cx1.toNat + x) (cy1.toNat + y) channel

/-- The crop of a detection is not empty. -/
def HasCrop (image : Image) (det : Detection) (expandRatio : ℚ) : Prop :=
  (cropEdges image.width det.x1 det.x2 expandRatio).1 <
      (cropEdges image.width det.x1 det.x2 expandRatio).2 ∧
    (cropEdges image.height det.y1 det.y2 expandRatio).1 <
      (cropEdges image.height det.y1 det.y2 expandRatio).2

/-- **A crop**, where it is not empty. -/
theorem cropRoi_cropOf {image crop : Image} {det : Detection} {expandRatio : ℚ}
    (h : cropRoi image det.x1 det.y1 det.x2 det.y2 expandRatio = some crop) :
    CropOf image crop (cropEdges image.width det.x1 det.x2 expandRatio).1
        (cropEdges image.height det.y1 det.y2 expandRatio).1 ∧
      HasCrop image det expandRatio ∧
      crop.width = (cropEdges image.width det.x1 det.x2 expandRatio).2 -
        (cropEdges image.width det.x1 det.x2 expandRatio).1 ∧
      crop.height = (cropEdges image.height det.y1 det.y2 expandRatio).2 -
        (cropEdges image.height det.y1 det.y2 expandRatio).1 := by
  simp only [cropRoi] at h
  split at h
  · next hsize =>
      obtain rfl := Option.some.inj h
      have hleft : 0 ≤ (cropEdges image.width det.x1 det.x2 expandRatio).1 := le_max_left _ _
      have htop : 0 ≤ (cropEdges image.height det.y1 det.y2 expandRatio).1 := le_max_left _ _
      have hright : (cropEdges image.width det.x1 det.x2 expandRatio).1 +
          ((cropEdges image.width det.x1 det.x2 expandRatio).2 -
            (cropEdges image.width det.x1 det.x2 expandRatio).1) ≤ image.width := by
        rw [add_sub_cancel]
        exact min_le_left _ _
      have hbottom : (cropEdges image.height det.y1 det.y2 expandRatio).1 +
          ((cropEdges image.height det.y1 det.y2 expandRatio).2 -
            (cropEdges image.height det.y1 det.y2 expandRatio).1) ≤ image.height := by
        rw [add_sub_cancel]
        exact min_le_left _ _
      refine ⟨⟨hleft, htop, hright, hbottom, fun row hrow => ?_,
        fun x y channel hx hy hchannel => ?_⟩, ⟨sub_pos.mp hsize.1, sub_pos.mp hsize.2⟩, rfl, rfl⟩
      · exact cropRow_fits hleft htop hsize.1 hright hbottom hrow
      · exact pixelAt_cropBytes hleft htop hsize.1 hright hbottom hx hy hchannel
  · cases h

theorem exists_cropRoi {image : Image} {det : Detection} {expandRatio : ℚ}
    (h : HasCrop image det expandRatio) :
    ∃ crop, cropRoi image det.x1 det.y1 det.x2 det.y2 expandRatio = some crop := by
  have hsize : 0 < (cropEdges image.width det.x1 det.x2 expandRatio).2 -
        (cropEdges image.width det.x1 det.x2 expandRatio).1 ∧
      0 < (cropEdges image.height det.y1 det.y2 expandRatio).2 -
        (cropEdges image.height det.y1 det.y2 expandRatio).1 :=
    ⟨sub_pos.mpr h.1, sub_pos.mpr h.2⟩
  simp only [cropRoi]
  rw [dif_pos hsize]
  exact ⟨_, rfl⟩

/-! ### The edge before it is cut -/

theorem truncate_nonpos {v : ℚ} (h : v ≤ 0) : truncate v ≤ 0 := by
  have hnum : 0 ≤ -v.num := Int.neg_nonneg.mpr (Rat.num_nonpos.mpr h)
  have hdiv : 0 ≤ (-v.num).tdiv v.den := Int.tdiv_nonneg hnum (Int.natCast_nonneg _)
  rw [Int.neg_tdiv] at hdiv
  exact Int.neg_nonneg.mp hdiv

theorem truncate_lt_iff {v : ℚ} {size : ℤ} (hsize : 0 < size) : truncate v < size ↔ v < size := by
  rcases le_total 0 v with hnonneg | hneg
  · rw [truncate_eq_floor hnonneg, Int.floor_lt]
  · have hpos : (0 : ℚ) < size := Int.cast_pos.mpr hsize
    exact iff_of_true ((truncate_nonpos hneg).trans_lt hsize) (hneg.trans_lt hpos)

/-- What cutting the lower edge to a whole pixel takes off. -/
def cutOff (v : ℚ) : ℚ := max 0 v - (max 0 (truncate v) : ℤ)

theorem cutOff_bounds (v : ℚ) :
    0 ≤ cutOff v ∧ cutOff v < 1 ∧ (cutOff v = 0 ↔ v ≤ 0 ∨ v.den = 1) := by
  rcases le_or_gt v 0 with hneg | hpos
  · have hzero : cutOff v = 0 := by
      rw [cutOff, max_eq_left hneg, max_eq_left (truncate_nonpos hneg), Int.cast_zero, sub_zero]
    rw [hzero]
    exact ⟨le_rfl, zero_lt_one, iff_of_true rfl (.inl hneg)⟩
  · have hfract : cutOff v = Int.fract v := by
      rw [cutOff, max_eq_right hpos.le, truncate_eq_floor hpos.le,
        max_eq_right (Int.floor_nonneg.mpr hpos.le), Int.fract]
    have hwhole : Int.fract v = 0 ↔ v.den = 1 := by
      rw [Int.fract_eq_zero_iff]
      constructor
      · rintro ⟨n, rfl⟩
        exact Rat.den_intCast n
      · exact fun hden => ⟨v.num, Rat.coe_int_num_of_den_eq_one hden⟩
    rw [hfract, hwhole]
    refine ⟨Int.fract_nonneg v, Int.fract_lt_one v, (or_iff_right (not_le.mpr hpos)).symm⟩

/-- Along one side: the expanded lower edge is cut at the border or whole, or the expanded upper
edge stays off the border. -/
def KeepsInside (size : ℤ) (low high expandRatio : ℚ) : Prop :=
  low - (high - low) * expandRatio ≤ 0 ∨ (low - (high - low) * expandRatio).den = 1 ∨
    high + (high - low) * expandRatio + 1 / 2 < size

instance (size : ℤ) (low high expandRatio : ℚ) :
    Decidable (KeepsInside size low high expandRatio) :=
  inferInstanceAs (Decidable (_ ∨ _ ∨ _))

/-- **A box across the whole crop**, moved by the edge before it was cut, along one side. -/
theorem overhang_iff {size : ℤ} (hsize : 0 < size) (low high expandRatio : ℚ) :
    max 0 (low - (high - low) * expandRatio) +
        (((cropEdges size low high expandRatio).2 -
          (cropEdges size low high expandRatio).1 : ℤ) : ℚ) ≤ size ↔
      KeepsInside size low high expandRatio := by
  obtain ⟨hnonneg, hlt, hzero⟩ := cutOff_bounds (low - (high - low) * expandRatio)
  set v := low - (high - low) * expandRatio with hv
  set u := high + (high - low) * expandRatio + 1 / 2 with hu
  have hedges : cropEdges size low high expandRatio = (max 0 (truncate v), min size (truncate u)) :=
    rfl
  -- what is cut off must fit between the upper edge and the border
  have hroom : max 0 v + ((min size (truncate u) - max 0 (truncate v) : ℤ) : ℚ) ≤ size ↔
      cutOff v ≤ ((size - min size (truncate u) : ℤ) : ℚ) := by
    rw [cutOff, Int.cast_sub, Int.cast_sub]
    constructor <;> intro h <;> linarith
  rw [hedges, hroom, KeepsInside, ← hv, ← hu, ← or_assoc, ← hzero]
  by_cases hfit : truncate u < size
  · rw [min_eq_right hfit.le]
    have hone : (1 : ℚ) ≤ ((size - truncate u : ℤ) : ℚ) := by
      exact_mod_cast Int.le_sub_left_of_add_le (Int.add_one_le_of_lt hfit)
    exact iff_of_true (hlt.le.trans hone) (.inr ((truncate_lt_iff hsize).mp hfit))
  · rw [min_eq_left (not_lt.mp hfit), sub_self, Int.cast_zero,
      or_iff_left fun h => hfit ((truncate_lt_iff hsize).mpr h)]
    exact ⟨fun h => le_antisymm h hnonneg, fun h => h.le⟩

/-! ### What a crop step stores -/

/-- The engine finds nothing outside the picture it is given. -/
def FindsInside (engine : Detector) : Prop :=
  ∀ image threshold subs, engine.infer image threshold = some subs →
    ∀ sub ∈ subs, YoloAdapter.InPicture image.width image.height sub

/-- A sub-detection is stored inside the picture, within a pixel of where it lies when moved to the
corner of the crop. -/
structure MappedBack (image : Image) (cx1 cy1 : ℤ) (sub stored : Detection) : Prop where
  inside : YoloAdapter.InPicture image.width image.height stored
  nearX1 : |stored.x1 - (sub.x1 + cx1)| < 1
  nearY1 : |stored.y1 - (sub.y1 + cy1)| < 1
  nearX2 : |stored.x2 - (sub.x2 + cx1)| < 1
  nearY2 : |stored.y2 - (sub.y2 + cy1)| < 1

/-- A crop step stores, for detections that trigger it and under their index, what its engine finds
in their crops, mapped back. -/
def StoresRight (entry : StepEntry) (image : Image) (primaryDetections : List Detection)
    (result : AnalysisResult) : Prop :=
  ∃ stored, (runCrop entry image primaryDetections result).secondaryResults =
      result.secondaryResults ++ stored ∧
    ∀ r ∈ stored, ∃ (i : ℕ) (det : Detection) (crop : Image) (subs : List Detection),
      primaryDetections[i]? = some det ∧ triggered entry.config det = true ∧ r.parentIndex = i ∧
      cropRoi image det.x1 det.y1 det.x2 det.y2 entry.config.roiExpandRatio = some crop ∧
      entry.engine.infer crop entry.config.confidenceThreshold = some subs ∧
      List.Forall₂ (MappedBack image
        (cropEdges image.width det.x1 det.x2 entry.config.roiExpandRatio).1
        (cropEdges image.height det.y1 det.y2 entry.config.roiExpandRatio).1) subs r.detections

/-- Along one side: where a coordinate is stored. -/
theorem stored_near (size : ℤ) (low high expandRatio v : ℚ) :
    |max 0 (low - (high - low) * expandRatio) + v -
      (v + (cropEdges size low high expandRatio).1)| < 1 := by
  obtain ⟨hnonneg, hlt, -⟩ := cutOff_bounds (low - (high - low) * expandRatio)
  have hcut : max 0 (low - (high - low) * expandRatio) + v -
      (v + (cropEdges size low high expandRatio).1) =
        cutOff (low - (high - low) * expandRatio) := by
    rw [cutOff, cropEdges]
    ring
  rw [hcut, abs_of_nonneg hnonneg]
  exact hlt

/-- A sub-detection inside the crop of a detection is mapped back, where the crop keeps inside. -/
theorem mappedBack_moveTo {image crop : Image} {det sub : Detection} {expandRatio : ℚ}
    (hcrop : cropRoi image det.x1 det.y1 det.x2 det.y2 expandRatio = some crop)
    (hwidth : KeepsInside image.width det.x1 det.x2 expandRatio)
    (hheight : KeepsInside image.height det.y1 det.y2 expandRatio)
    (hsub : YoloAdapter.InPicture crop.width crop.height sub) :
    MappedBack image (cropEdges image.width det.x1 det.x2 expandRatio).1
      (cropEdges image.height det.y1 det.y2 expandRatio).1 sub
      (moveTo (max 0 (det.x1 - (det.x2 - det.x1) * expandRatio))
        (max 0 (det.y1 - (det.y2 - det.y1) * expandRatio)) sub) := by
  obtain ⟨-, -, hcropWidth, hcropHeight⟩ := cropRoi_cropOf hcrop
  have hright := (overhang_iff image.width_pos det.x1 det.x2 expandRatio).mpr hwidth
  have hbottom := (overhang_iff image.height_pos det.y1 det.y2 expandRatio).mpr hheight
  rw [← hcropWidth] at hright
  rw [← hcropHeight] at hbottom
  obtain ⟨hleft, hwide, hsubRight, htop, hhigh, hsubBottom⟩ := hsub
  have hroiX := le_max_left 0 (det.x1 - (det.x2 - det.x1) * expandRatio)
  have hroiY := le_max_left 0 (det.y1 - (det.y2 - det.y1) * expandRatio)
  refine ⟨⟨add_nonneg hroiX hleft, ?_, ?_, add_nonneg hroiY htop, ?_, ?_⟩,
    stored_near _ _ _ _ _, stored_near _ _ _ _ _, stored_near _ _ _ _ _, stored_near _ _ _ _ _⟩
  · simp only [moveTo]
    linarith
  · simp only [moveTo]
    linarith
  · simp only [moveTo]
    linarith
  · simp only [moveTo]
    linarith

/-- A box across a whole picture. -/
def wholeBox (image : Image) : Detection where
  x1 := 0
  y1 := 0
  x2 := image.width
  y2 := image.height
  confidence := 1
  classId := 0
  className := ""

/-- An engine that finds the whole picture. -/
def wholeDetector : Detector where
  infer image _ := some [wholeBox image]

theorem wholeDetector_findsInside : FindsInside wholeDetector := by
  intro image threshold subs hsubs sub hsub
  obtain rfl := Option.some.inj hsubs
  obtain rfl := List.mem_singleton.mp hsub
  have hwidth : (0 : ℚ) ≤ image.width := Int.cast_nonneg image.width_pos.le
  have hheight : (0 : ℚ) ≤ image.height := Int.cast_nonneg image.height_pos.le
  exact ⟨le_rfl, hwidth, le_rfl, le_rfl, hheight, le_rfl⟩

section

variable {config : CascadeStep} {image : Image} {primaryDetections : List Detection}
  {result : AnalysisResult}

/-- An engine that finds the whole crop tells whether the crop keeps inside. -/
theorem keepsInside_of_storesRight
    (h : StoresRight { config := config, engine := wholeDetector } image primaryDetections result)
    {det : Detection} (hdet : det ∈ primaryDetections) (htriggered : triggered config det = true)
    (hhas : HasCrop image det config.roiExpandRatio) :
    KeepsInside image.width det.x1 det.x2 config.roiExpandRatio ∧
      KeepsInside image.height det.y1 det.y2 config.roiExpandRatio := by
  obtain ⟨i, hi⟩ := List.mem_iff_getElem?.mp hdet
  obtain ⟨crop, hcrop⟩ := exists_cropRoi hhas
  obtain ⟨-, -, hcropWidth, hcropHeight⟩ := cropRoi_cropOf hcrop
  have hright := overhang_iff image.width_pos det.x1 det.x2 config.roiExpandRatio
  have hbottom := overhang_iff image.height_pos det.y1 det.y2 config.roiExpandRatio
  rw [← hcropWidth] at hright
  rw [← hcropHeight] at hbottom
  obtain ⟨stored, hstored, hall⟩ := h
  rw [runCrop_eq] at hstored
  obtain rfl := List.append_cancel_left hstored
  have hrun : runCropOn { config := config, engine := wholeDetector } image det i = some
      { parentIndex := i
        modelName := config.modelName
        detections := [moveTo (max 0 (det.x1 - (det.x2 - det.x1) * config.roiExpandRatio))
          (max 0 (det.y1 - (det.y2 - det.y1) * config.roiExpandRatio)) (wholeBox crop)] } := by
    rw [runCropOn, hcrop]
    rfl
  obtain ⟨i', det', crop', subs, -, -, -, -, -, hmapped⟩ := hall _
    (List.mem_filterMap.mpr ⟨(det, i), List.mem_filter.mpr
      ⟨List.mem_zipIdx_iff_getElem?.mpr hi, htriggered⟩, hrun⟩)
  obtain ⟨sub, subs, hone, -, rfl⟩ := List.forall₂_cons_right_iff.mp hmapped
  exact ⟨hright.mp hone.inside.right, hbottom.mp hone.inside.bottom⟩

theorem storesRight_of_keepsInside
    (h : ∀ det ∈ primaryDetections, triggered config det = true →
      HasCrop image det config.roiExpandRatio →
        KeepsInside image.width det.x1 det.x2 config.roiExpandRatio ∧
          KeepsInside image.height det.y1 det.y2 config.roiExpandRatio)
    {engine : Detector} (hengine : FindsInside engine) :
    StoresRight { config := config, engine := engine } image primaryDetections result := by
  refine ⟨_, by rw [runCrop_eq], fun r hr => ?_⟩
  obtain ⟨⟨det, i⟩, hmem, hrun⟩ := List.mem_filterMap.mp hr
  obtain ⟨hzip, htriggered⟩ := List.mem_filter.mp hmem
  have hi : primaryDetections[i]? = some det := List.mem_zipIdx_iff_getElem?.mp hzip
  simp only [runCropOn] at hrun
  split at hrun
  · cases hrun
  · next crop hcrop =>
      split at hrun
      · cases hrun
      · next subs hsubs =>
          obtain rfl := Option.some.inj hrun
          obtain ⟨hwidth, hheight⟩ := h det (List.mem_of_getElem? hi) htriggered
            (cropRoi_cropOf hcrop).2.1
          refine ⟨i, det, crop, subs, hi, htriggered, rfl, hcrop, hsubs, ?_⟩
          rw [List.forall₂_map_right_iff, List.forall₂_same]
          exact fun sub hsub =>
            mappedBack_moveTo hcrop hwidth hheight (hengine crop _ subs hsubs sub hsub)

end

/-- The crops of a step hold the pixels of their rectangles, and what any engine finds inside them
is stored inside the picture. -/
def CropsMapBack (config : CascadeStep) (image : Image) (primaryDetections : List Detection)
    (result : AnalysisResult) : Prop :=
  (∀ (det : Detection) (crop : Image),
    cropRoi image det.x1 det.y1 det.x2 det.y2 config.roiExpandRatio = some crop →
      CropOf image crop (cropEdges image.width det.x1 det.x2 config.roiExpandRatio).1
        (cropEdges image.height det.y1 det.y2 config.roiExpandRatio).1) ∧
  ∀ engine, FindsInside engine →
    StoresRight { config := config, engine := engine } image primaryDetections result

/-- **Crops map back** exactly if every crop that is made keeps inside. -/
theorem crops_map_back_iff (config : CascadeStep) (image : Image)
    (primaryDetections : List Detection) (result : AnalysisResult) :
    CropsMapBack config image primaryDetections result ↔
      ∀ det ∈ primaryDetections, triggered config det = true →
        HasCrop image det config.roiExpandRatio →
          KeepsInside image.width det.x1 det.x2 config.roiExpandRatio ∧
            KeepsInside image.height det.y1 det.y2 config.roiExpandRatio := by
  constructor
  · rintro ⟨-, h⟩ det hdet htriggered hhas
    exact keepsInside_of_storesRight (h wholeDetector wholeDetector_findsInside) hdet htriggered
      hhas
  · exact fun h => ⟨fun det crop hcrop => (cropRoi_cropOf hcrop).1,
      fun engine hengine => storesRight_of_keepsInside h hengine⟩

/-- A detection at the right border that starts between two pixels. -/
def atBorder : Detection where
  x1 := 5 / 2
  y1 := 0
  x2 := 10
  y2 := 10
  confidence := 1
  classId := 0
  className := "car"

/-- What is found in its crop is stored half a pixel to the right, across the border. -/
theorem crops_map_back_refuted :
    ¬ ∀ (config : CascadeStep) (image : Image) (primaryDetections : List Detection)
      (result : AnalysisResult), 0 ≤ config.roiExpandRatio → config.roiExpandRatio ≤ 1 →
      (∀ det ∈ primaryDetections, det.x1 ≤ det.x2 ∧ det.y1 ≤ det.y2 ∧
        |det.x1| < 2 ^ 30 ∧ |det.y1| < 2 ^ 30 ∧ |det.x2| < 2 ^ 30 ∧ |det.y2| < 2 ^ 30) →
        CropsMapBack config image primaryDetections result := by
  intro h
  obtain ⟨-, hstores⟩ := h { name := "plate", modelName := "plate", roiExpandRatio := 0 }
    (blackSquare 10 (by decide)) [atBorder] {} le_rfl zero_le_one (by
      intro det hdet
      obtain rfl := List.mem_singleton.mp hdet
      decide +kernel)
  obtain ⟨hwidth, -⟩ := keepsInside_of_storesRight
    (hstores wholeDetector wholeDetector_findsInside) List.mem_cons_self (by decide)
    (by unfold HasCrop; decide +kernel)
  revert hwidth
  decide +kernel

end LoongNvr.AiEngine
