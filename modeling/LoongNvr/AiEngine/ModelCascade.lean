import LoongNvr.AiEngine.InferenceEngine
import Mathlib.Tactic.Linarith

/-!
# AI engine — ModelCascade

Multi-model inference: primary and parallel steps on the whole frame, then crop steps on the
regions of the detections whose class name is among their triggers.

* `cropRow_fits`: a crop is read inside the picture.
* `runCrop_eq`: a crop step adds what is found in the regions of the detections that trigger it.
-/

namespace LoongNvr.AiEngine
open LoongNvr.Core Support YoloAdapter

/-! ### Steps -/

/-- Execution mode for a cascade step. -/
inductive CascadeMode
  | primary
  | crop
  | parallel
  deriving DecidableEq, Repr

/-- Configuration for one step; no trigger classes stand for all. -/
structure CascadeStep where
  name : String
  modelName : String
  mode : CascadeMode := .primary
  triggerClasses : List String := []
  confidenceThreshold : ℚ := 1 / 2
  roiExpandRatio : ℚ := 1 / 10
  deriving DecidableEq, Repr

/-- A step with its engine. -/
structure StepEntry where
  config : CascadeStep
  engine : Detector

/-! ### Cropping -/

/-- The left and right (or upper and lower) edge of a crop along one side of the picture. -/
def cropEdges (size : ℤ) (low high expandRatio : ℚ) : ℤ × ℤ :=
  let length := high - low
  (max 0 (truncate (low - length * expandRatio)),
    min size (truncate (high + length * expandRatio + 1 / 2)))

/-- The bytes of a rectangle, row by row. -/
def cropBytes (image : Image) (left top cropWidth cropHeight : ℤ) : List UInt8 :=
  (List.range cropHeight.toNat).flatMap fun row =>
    (image.data.drop (((top.toNat + row) * image.width.toNat + left.toNat) * 3)).take
      (cropWidth.toNat * 3)

/-- **A row lies inside the picture.** -/
theorem cropRow_fits {image : Image} {left top cropWidth cropHeight : ℤ} (hleft : 0 ≤ left)
    (htop : 0 ≤ top) (hwidth : 0 < cropWidth) (hright : left + cropWidth ≤ image.width)
    (hbottom : top + cropHeight ≤ image.height) {row : ℕ} (hrow : row < cropHeight.toNat) :
    ((top.toNat + row) * image.width.toNat + left.toNat) * 3 + cropWidth.toNat * 3 ≤
      image.data.length := by
  have hdata : image.data.length = image.height.toNat * image.width.toNat * 3 := by
    have hsize := image.size_eq
    rw [← Int.toNat_of_nonneg image.width_pos.le, ← Int.toNat_of_nonneg image.height_pos.le]
      at hsize
    rw [mul_comm image.height.toNat]
    exact_mod_cast hsize
  have hline : (top.toNat + row + 1) * image.width.toNat ≤
      image.height.toNat * image.width.toNat := Nat.mul_le_mul_right _ (by omega)
  rw [add_mul, one_mul] at hline
  have hin : left.toNat + cropWidth.toNat ≤ image.width.toNat := by omega
  omega

theorem length_cropBytes {image : Image} {left top cropWidth cropHeight : ℤ} (hleft : 0 ≤ left)
    (htop : 0 ≤ top) (hwidth : 0 < cropWidth) (hright : left + cropWidth ≤ image.width)
    (hbottom : top + cropHeight ≤ image.height) :
    (cropBytes image left top cropWidth cropHeight).length =
      cropHeight.toNat * (cropWidth.toNat * 3) := by
  have hrow : ∀ row ∈ List.range cropHeight.toNat,
      ((image.data.drop (((top.toNat + row) * image.width.toNat + left.toNat) * 3)).take
        (cropWidth.toNat * 3)).length = cropWidth.toNat * 3 := by
    intro row hrow
    have hfits := cropRow_fits hleft htop hwidth hright hbottom (List.mem_range.mp hrow)
    rw [List.length_take, List.length_drop]
    omega
  rw [cropBytes, List.length_flatMap, List.map_congr_left hrow]
  simp

/-- `ModelCascade::CropRoi` on a picture of three channels; `none` for an empty crop. -/
def cropRoi (image : Image) (x1 y1 x2 y2 expandRatio : ℚ) : Option Image :=
  let horizontal := cropEdges image.width x1 x2 expandRatio
  let vertical := cropEdges image.height y1 y2 expandRatio
  if h : 0 < horizontal.2 - horizontal.1 ∧ 0 < vertical.2 - vertical.1 then
    some
      { width := horizontal.2 - horizontal.1
        height := vertical.2 - vertical.1
        data := cropBytes image horizontal.1 vertical.1 (horizontal.2 - horizontal.1)
          (vertical.2 - vertical.1)
        width_pos := h.1
        height_pos := h.2
        size_eq := by
          have hright : horizontal.1 + (horizontal.2 - horizontal.1) ≤ image.width := by
            rw [add_sub_cancel]; exact min_le_left _ _
          have hbottom : vertical.1 + (vertical.2 - vertical.1) ≤ image.height := by
            rw [add_sub_cancel]; exact min_le_left _ _
          have hleft : 0 ≤ horizontal.1 := le_max_left _ _
          have htop : 0 ≤ vertical.1 := le_max_left _ _
          rw [length_cropBytes hleft htop h.1 hright hbottom]
          push_cast
          rw [Int.toNat_of_nonneg h.1.le, Int.toNat_of_nonneg h.2.le]
          ring }
  else none

/-! ### Running the steps -/

/-- `RunPrimaryOrParallel` -/
def runPrimaryOrParallel (image : Image) (result : AnalysisResult) (entry : StepEntry) :
    AnalysisResult :=
  { result with
    detections := result.detections ++
      (entry.engine.infer image entry.config.confidenceThreshold).getD [] }

/-- Does the step trigger on the detection? -/
def triggered (step : CascadeStep) (det : Detection) : Bool :=
  step.triggerClasses.isEmpty || step.triggerClasses.contains det.className

/-- A sub-detection moved to the corner of its region. -/
def moveTo (roiX1 roiY1 : ℚ) (sub : Detection) : Detection :=
  { sub with
    x1 := roiX1 + sub.x1
    y1 := roiY1 + sub.y1
    x2 := roiX1 + sub.x2
    y2 := roiY1 + sub.y2 }

/-- A crop step on the detection at an index; nothing where the crop is empty or inference
fails. -/
def runCropOn (entry : StepEntry) (image : Image) (det : Detection) (i : ℕ) :
    Option SecondaryResult :=
  match cropRoi image det.x1 det.y1 det.x2 det.y2 entry.config.roiExpandRatio with
  | none => none
  | some cropped =>
      match entry.engine.infer cropped entry.config.confidenceThreshold with
      | none => none
      | some subDetections =>
          let roiX1 := max 0 (det.x1 - (det.x2 - det.x1) * entry.config.roiExpandRatio)
          let roiY1 := max 0 (det.y1 - (det.y2 - det.y1) * entry.config.roiExpandRatio)
          some
            { parentIndex := i
              modelName := entry.config.modelName
              detections := subDetections.map (moveTo roiX1 roiY1) }

/-- One turn of the loop of `RunCrop`, for any filter of the detections. -/
def cropTurn (select : Detection → Bool) (entry : StepEntry) (image : Image)
    (result : AnalysisResult) (p : Detection × ℕ) : AnalysisResult :=
  if select p.1 then
    { result with
      secondaryResults := result.secondaryResults ++ (runCropOn entry image p.1 p.2).toList }
  else result

/-- The loop of `RunCrop`, for any filter of the detections. -/
def runCropWhere (select : Detection → Bool) (entry : StepEntry) (image : Image)
    (primaryDetections : List Detection) (result : AnalysisResult) : AnalysisResult :=
  primaryDetections.zipIdx.foldl (cropTurn select entry image) result

/-- `RunCrop` -/
def runCrop (entry : StepEntry) (image : Image) (primaryDetections : List Detection)
    (result : AnalysisResult) : AnalysisResult :=
  runCropWhere (triggered entry.config) entry image primaryDetections result

/-- `ModelCascade::Run`, `none` where it returns false. -/
def runCascade (steps : List StepEntry) (image : Image) (result : AnalysisResult) :
    Option AnalysisResult :=
  if steps.isEmpty then none
  else
    let result := (steps.filter fun entry => entry.config.mode ≠ .crop).foldl
      (runPrimaryOrParallel image) result
    let result := (steps.filter fun entry => entry.config.mode = .crop).foldl
      (fun result entry => runCrop entry image result.detections result) result
    some { result with hasResult := true }

/-! ### What a crop step does -/

/-- Two filters that agree on the detections crop the same. -/
theorem runCropWhere_congr {select select' : Detection → Bool} {entry : StepEntry} {image : Image}
    {primaryDetections : List Detection} {result : AnalysisResult}
    (h : ∀ det ∈ primaryDetections, select det = select' det) :
    runCropWhere select entry image primaryDetections result =
      runCropWhere select' entry image primaryDetections result := by
  refine List.foldl_ext _ _ _ fun acc p hp => ?_
  obtain ⟨det, i⟩ := p
  have hdet : det ∈ primaryDetections := List.fst_mem_of_mem_zipIdx hp
  rw [cropTurn, cropTurn, h det hdet]

theorem foldl_cropTurn (select : Detection → Bool) (entry : StepEntry) (image : Image)
    (pairs : List (Detection × ℕ)) (result : AnalysisResult) :
    pairs.foldl (cropTurn select entry image) result =
      { result with
        secondaryResults := result.secondaryResults ++
          (pairs.filter fun p => select p.1).filterMap fun p => runCropOn entry image p.1 p.2 } := by
  induction pairs generalizing result with
  | nil => simp
  | cons p pairs ih =>
      rw [List.foldl_cons, ih, cropTurn]
      by_cases hp : select p.1 = true
      · have hfilter : (p :: pairs).filter (fun p => select p.1) =
            p :: pairs.filter fun p => select p.1 := List.filter_cons_of_pos hp
        rw [if_pos hp, hfilter, List.filterMap_cons]
        cases runCropOn entry image p.1 p.2 <;> simp
      · have hfilter : (p :: pairs).filter (fun p => select p.1) =
            pairs.filter fun p => select p.1 := List.filter_cons_of_neg hp
        rw [if_neg hp, hfilter]

/-- **A crop step** keeps the detections, and adds what its engine finds in the regions of the
detections that trigger it, in their order. -/
theorem runCrop_eq (entry : StepEntry) (image : Image) (primaryDetections : List Detection)
    (result : AnalysisResult) :
    runCrop entry image primaryDetections result =
      { result with
        secondaryResults := result.secondaryResults ++
          (primaryDetections.zipIdx.filter fun p => triggered entry.config p.1).filterMap
            fun p => runCropOn entry image p.1 p.2 } :=
  foldl_cropTurn _ entry image _ result

end LoongNvr.AiEngine
