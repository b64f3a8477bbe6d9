import LoongNvr.Core.Types
import LoongNvr.Support.Sorter
import LoongNvr.Support.Tensor
import Mathlib.Data.Rat.Lemmas
import Mathlib.Algebra.Order.Ring.Rat

/-!
# AI engine — YoloAdapter

`YoloV5Adapter` and `YoloV8Adapter`: the letterbox before inference and, after it, decoding,
mapping back to the image and non-maximum suppression.  The two classes share the letterbox and
the box arithmetic and differ in the layout of the output and in the test of the suppression.

The letterbox scale and padding are member state, written by every `PreProcess` and read by
`PostProcess`.  `cv::resize` is a parameter; padding, the change to RGB and the planar layout are
computed here.

* `mem_applyNms`, `applyNms_singleton`: suppression only leaves detections out, and none of one.
* `mem_candidates`: a candidate has no class name, and its class index is one of the model's.
-/

namespace LoongNvr.AiEngine
open LoongNvr.Core Support

/-- `static_cast<int>` of a floating-point number. -/
def truncate (x : ℚ) : ℤ := x.num.tdiv x.den

/-- `cv::resize` with bilinear interpolation, by the pixels of the result: column, row, channel. -/
structure OpenCv where
  resize : Image → (width height : ℤ) → (x y : ℤ) → (channel : ℕ) → UInt8

/-- The adapter classes for the YOLO families. -/
inductive YoloVersion
  | v5
  | v8
  deriving DecidableEq, Repr

/-- An adapter, its letterbox state apart. -/
structure YoloAdapter where
  version : YoloVersion
  inputSize : ℕ
  inputSize_pos : 0 < inputSize

/-- `scale_x_`, `scale_y_`, `pad_x_` and `pad_y_`. -/
structure Letterbox where
  scaleX : ℚ := 1
  scaleY : ℚ := 1
  padX : ℤ := 0
  padY : ℤ := 0
  deriving DecidableEq, Repr

namespace YoloAdapter

/-! ### Preprocessing -/

/-- The shape of one preprocessed picture. -/
def inputShape (a : YoloAdapter) : List ℕ := [3, a.inputSize, a.inputSize]

/-- The scale that fits a picture into the input square. -/
def letterboxScale (a : YoloAdapter) (width height : ℤ) : ℚ :=
  min ((a.inputSize : ℚ) / width) ((a.inputSize : ℚ) / height)

/-- `new_w` and `new_h`. -/
def scaledSize (a : YoloAdapter) (width height : ℤ) : ℤ × ℤ :=
  (truncate (width * a.letterboxScale width height),
    truncate (height * a.letterboxScale width height))

/-- The state `LetterboxResize` leaves. -/
def letterbox (a : YoloAdapter) (width height : ℤ) : Letterbox where
  scaleX := a.letterboxScale width height
  scaleY := a.letterboxScale width height
  padX := (a.inputSize - (a.scaledSize width height).1).tdiv 2
  padY := (a.inputSize - (a.scaledSize width height).2).tdiv 2

/-- The pixel of the padded picture: the resized one inside, 114 around it. -/
def paddedPixel (cv : OpenCv) (a : YoloAdapter) (image : Image) (x y : ℤ) (channel : ℕ) : UInt8 :=
  let lb := a.letterbox image.width image.height
  let (newW, newH) := a.scaledSize image.width image.height
  if lb.padX ≤ x ∧ x < lb.padX + newW ∧ lb.padY ≤ y ∧ y < lb.padY + newH then
    cv.resize image newW newH (x - lb.padX) (y - lb.padY) channel
  else 114

/-- A plane of the input, row by row, from 0 to 1. -/
def inputPlane (cv : OpenCv) (a : YoloAdapter) (image : Image) (channel : ℕ) : List ℚ :=
  (List.range a.inputSize).flatMap fun (y : ℕ) =>
    (List.range a.inputSize).map fun (x : ℕ) =>
      ((a.paddedPixel cv image x y channel).toNat : ℚ) / 255

theorem length_inputPlane (cv : OpenCv) (a : YoloAdapter) (image : Image) (channel : ℕ) :
    (a.inputPlane cv image channel).length = a.inputSize * a.inputSize := by
  simp [inputPlane, List.length_flatMap]

/-- `PreProcess`: red, green and blue planes of a picture whose channels are blue, green, red. -/
def preProcess (cv : OpenCv) (a : YoloAdapter) (image : Image) : Letterbox × Row ℚ a.inputShape :=
  (a.letterbox image.width image.height,
    { data := a.inputPlane cv image 2 ++ a.inputPlane cv image 1 ++ a.inputPlane cv image 0
      size_eq := by
        simp only [List.length_append, length_inputPlane, inputShape, List.prod_cons, List.prod_nil]
        ring })

/-! ### Non-maximum suppression -/

/-- The overlap and the union of two boxes. -/
def overlap (a b : Detection) : ℚ × ℚ :=
  let interArea :=
    max 0 (min a.x2 b.x2 - max a.x1 b.x1) * max 0 (min a.y2 b.y2 - max a.y1 b.y1)
  let areaA := (a.x2 - a.x1) * (a.y2 - a.y1)
  let areaB := (b.x2 - b.x1) * (b.y2 - b.y1)
  (interArea, areaA + areaB - interArea)

/-- Does the earlier box suppress the later?  The v5 test compares an overlap of 0 where the union
is empty; the v8 test never holds there. -/
def suppresses (a : YoloAdapter) (nmsThreshold : ℚ) (first later : Detection) : Bool :=
  let (interArea, unionArea) := overlap first later
  decide (first.classId = later.classId) &&
    match a.version with
    | .v5 => decide ((if unionArea > 0 then interArea / unionArea else 0) > nmsThreshold)
    | .v8 => decide (unionArea > 0) && decide (interArea / unionArea > nmsThreshold)

/-- One turn of the outer loop over the flags. -/
def suppressBy (a : YoloAdapter) (nmsThreshold : ℚ) (detections : List Detection)
    (suppressed : List Bool) (i : ℕ) : List Bool :=
  if suppressed.getD i false then suppressed
  else
    match detections[i]? with
    | none => suppressed -- the loop stays inside the list
    | some first =>
        (detections.zip suppressed).mapIdx fun j (later, flag) =>
          flag || (decide (i < j) && a.suppresses nmsThreshold first later)

/-- How detections are sorted, the most confident first. -/
abbrev DetectionSorter := Sorter fun a b : Detection => a.confidence > b.confidence

/-- Insertion sort by confidence. -/
def byConfidence : DetectionSorter := Sorter.byKeyDesc Detection.confidence

/-- `ApplyNMS` -/
def applyNms (srt : DetectionSorter) (a : YoloAdapter) (nmsThreshold : ℚ)
    (detections : List Detection) : List Detection :=
  if detections.isEmpty then detections
  else
    let sorted := srt.sort detections
    let suppressed := (List.range sorted.length).foldl (a.suppressBy nmsThreshold sorted)
      (List.replicate sorted.length false)
    ((sorted.zip suppressed).filter fun p => !p.2).map (·.1)

/-! ### Postprocessing -/

/-- One turn of the loop over the class scores. -/
def betterClass (best : ℤ × ℚ) (p : ℚ × ℕ) : ℤ × ℚ := if p.1 > best.2 then (p.2, p.1) else best

/-- The best class and its score; a class must beat 0. -/
def bestClass (scores : List ℚ) : ℤ × ℚ := scores.zipIdx.foldl betterClass (0, 0)

/-- A coordinate mapped from the letterbox to the picture and clamped to it. -/
def mapBack (scale : ℚ) (pad size : ℤ) (v : ℚ) : ℚ := max 0 (min ((v - pad) / scale) size)

/-- The detection of a decoded box; its class name is never set. -/
def boxDetection (lb : Letterbox) (width height : ℤ) (cx cy w h confidence : ℚ) (classId : ℤ) :
    Detection where
  x1 := mapBack lb.scaleX lb.padX width (cx - w / 2)
  y1 := mapBack lb.scaleY lb.padY height (cy - h / 2)
  x2 := mapBack lb.scaleX lb.padX width (cx + w / 2)
  y2 := mapBack lb.scaleY lb.padY height (cy + h / 2)
  confidence := confidence
  classId := classId
  className := ""

/-- One turn of the loop of `YoloV5Adapter::PostProcess`: rows of box, objectness and scores. -/
def candidateV5 (lb : Letterbox) (width height : ℤ) (confidenceThreshold : ℚ) (data : List ℚ)
    (numFeatures i : ℕ) : Option Detection :=
  let offset := i * numFeatures
  let objConf := data.getD (offset + 4) 0
  if objConf < confidenceThreshold then none
  else
    let scores := (List.range (numFeatures - 5)).map fun c => data.getD (offset + 5 + c) 0
    let (best, bestScore) := bestClass scores
    let finalConf := objConf * bestScore
    if finalConf < confidenceThreshold then none
    else some (boxDetection lb width height (data.getD offset 0) (data.getD (offset + 1) 0)
      (data.getD (offset + 2) 0) (data.getD (offset + 3) 0) finalConf best)

/-- One turn of the loop of `YoloV8Adapter::PostProcess`: columns of box and scores. -/
def candidateV8 (lb : Letterbox) (width height : ℤ) (confidenceThreshold : ℚ) (data : List ℚ)
    (numFeatures numDetections i : ℕ) : Option Detection :=
  let scores := (List.range (numFeatures - 4)).map fun c =>
    data.getD ((4 + c) * numDetections + i) 0
  let (best, bestScore) := bestClass scores
  if bestScore < confidenceThreshold then none
  else some (boxDetection lb width height (data.getD (0 * numDetections + i) 0)
    (data.getD (1 * numDetections + i) 0) (data.getD (2 * numDetections + i) 0)
    (data.getD (3 * numDetections + i) 0) bestScore best)

/-- The detections before suppression, by the last two dimensions of the output. -/
def candidates (a : YoloAdapter) (lb : Letterbox) (width height : ℤ) (confidenceThreshold : ℚ)
    (data : List ℚ) (dim1 dim2 : ℕ) : List Detection :=
  match a.version with
  | .v5 => (List.range dim1).filterMap
      (candidateV5 lb width height confidenceThreshold data dim2)
  | .v8 => (List.range dim2).filterMap
      (candidateV8 lb width height confidenceThreshold data dim1 dim2)

/-- `PostProcess`; `none` where it returns false. -/
def postProcess (srt : DetectionSorter) (a : YoloAdapter) (lb : Letterbox) (output : Tensor ℚ)
    (width height : ℤ) (confidenceThreshold nmsThreshold : ℚ) : Option (List Detection) :=
  match output.shape with
  | _ :: dim1 :: dim2 :: _ =>
      some (a.applyNms srt nmsThreshold
        (a.candidates lb width height confidenceThreshold output.data dim1 dim2))
  | _ => none

/-! ### What suppression keeps -/

section Nms

variable (srt : DetectionSorter) (a : YoloAdapter) (nmsThreshold : ℚ)

theorem mem_applyNms {detections : List Detection} {det : Detection}
    (h : det ∈ a.applyNms srt nmsThreshold detections) : det ∈ detections := by
  unfold applyNms at h
  split at h
  · exact h
  · obtain ⟨⟨det', flag⟩, hmem, rfl⟩ := List.mem_map.mp h
    exact srt.mem.mp (List.of_mem_zip (List.mem_filter.mp hmem).1).1

theorem applyNms_singleton (det : Detection) : a.applyNms srt nmsThreshold [det] = [det] := by
  have hsort : srt.sort [det] = [det] := List.perm_singleton.mp (srt.perm [det])
  simp [applyNms, hsort, suppressBy]

end Nms

/-! ### Candidates -/

/-- The class is one of the first `k`, or still 0. -/
def InClasses (k : ℕ) (classId : ℤ) : Prop := classId = 0 ∨ 0 ≤ classId ∧ classId < k

theorem foldl_betterClass {k : ℕ} (pairs : List (ℚ × ℕ)) (best : ℤ × ℚ)
    (hpairs : ∀ p ∈ pairs, p.2 < k) (hbest : InClasses k best.1) :
    InClasses k (pairs.foldl betterClass best).1 := by
  induction pairs generalizing best with
  | nil => exact hbest
  | cons p pairs ih =>
      refine ih _ (fun q hq => hpairs q (List.mem_cons_of_mem _ hq)) ?_
      have hp := hpairs p List.mem_cons_self
      simp only [betterClass]
      split
      · exact .inr ⟨Int.natCast_nonneg _, Int.ofNat_lt.mpr hp⟩
      · exact hbest

theorem bestClass_inClasses (scores : List ℚ) :
    InClasses scores.length (bestClass scores).1 := by
  refine foldl_betterClass _ _ ?_ (.inl rfl)
  rintro ⟨score, c⟩ hp
  exact (List.getElem?_eq_some_iff.mp (List.mem_zipIdx_iff_getElem?.mp hp)).1

/-- The number of classes an output of this layout has scores for. -/
def numClasses (a : YoloAdapter) (dim1 dim2 : ℕ) : ℕ :=
  match a.version with
  | .v5 => dim2 - 5
  | .v8 => dim1 - 4

/-- **A candidate** has no class name, and a class index of the model. -/
theorem mem_candidates {a : YoloAdapter} {lb : Letterbox} {width height : ℤ} {threshold : ℚ}
    {data : List ℚ} {dim1 dim2 : ℕ} {det : Detection}
    (h : det ∈ a.candidates lb width height threshold data dim1 dim2) :
    det.className = "" ∧ InClasses (a.numClasses dim1 dim2) det.classId := by
  unfold candidates at h
  simp only [numClasses]
  cases hv : a.version with
  | v5 =>
      rw [hv] at h
      obtain ⟨i, -, hsome⟩ := List.mem_filterMap.mp h
      dsimp only [candidateV5] at hsome
      split at hsome
      · cases hsome
      · split at hsome
        · cases hsome
        · cases hsome
          have hclass := bestClass_inClasses
            ((List.range (dim2 - 5)).map fun c => data.getD (i * dim2 + 5 + c) 0)
          rw [List.length_map, List.length_range] at hclass
          exact ⟨rfl, hclass⟩
  | v8 =>
      rw [hv] at h
      obtain ⟨i, -, hsome⟩ := List.mem_filterMap.mp h
      dsimp only [candidateV8] at hsome
      split at hsome
      · cases hsome
      · cases hsome
        have hclass := bestClass_inClasses
          ((List.range (dim1 - 4)).map fun c => data.getD ((4 + c) * dim2 + i) 0)
        rw [List.length_map, List.length_range] at hclass
        exact ⟨rfl, hclass⟩

/-! ### An output with one box -/

/-- Scores that are 1 for one class and 0 for the others. -/
def oneHot (k c : ℕ) : List ℚ := List.replicate c 0 ++ 1 :: List.replicate (k - 1 - c) 0

theorem length_oneHot {k c : ℕ} (h : c < k) : (oneHot k c).length = k := by
  simp only [oneHot, List.length_append, List.length_replicate, List.length_cons]
  omega

theorem foldl_betterClass_of_le {pairs : List (ℚ × ℕ)} {best : ℤ × ℚ}
    (h : ∀ p ∈ pairs, p.1 ≤ best.2) : pairs.foldl betterClass best = best := by
  induction pairs with
  | nil => rfl
  | cons p pairs ih =>
      have hp : betterClass best p = best := if_neg (not_lt_of_ge (h p List.mem_cons_self))
      rw [List.foldl_cons, hp]
      exact ih fun q hq => h q (List.mem_cons_of_mem _ hq)

theorem le_of_mem_zipIdx_replicate {n m : ℕ} {x y : ℚ} (hxy : x ≤ y) :
    ∀ p ∈ (List.replicate n x).zipIdx m, p.1 ≤ y := by
  rintro ⟨q, i⟩ hp
  have hq : q ∈ List.replicate n x := List.fst_mem_of_mem_zipIdx hp
  exact (List.eq_of_mem_replicate hq).trans_le hxy

theorem bestClass_oneHot (k c : ℕ) : bestClass (oneHot k c) = ((c : ℤ), 1) := by
  have hwin : betterClass (0, 0) ((1 : ℚ), c) = ((c : ℤ), 1) := if_pos one_pos
  rw [bestClass, oneHot, List.zipIdx_append, List.foldl_append,
    foldl_betterClass_of_le (le_of_mem_zipIdx_replicate le_rfl), List.zipIdx_cons,
    List.foldl_cons, List.length_replicate, Nat.zero_add, hwin,
    foldl_betterClass_of_le (le_of_mem_zipIdx_replicate zero_le_one)]

/-- The shape of an output with one box of a model with `k` classes. -/
def oneBoxShape (a : YoloAdapter) (k : ℕ) : List ℕ :=
  match a.version with
  | .v5 => [1, 5 + k]
  | .v8 => [4 + k, 1]

/-- An output with one box, certain to be of class `c`. -/
def oneBox (a : YoloAdapter) {k c : ℕ} (hc : c < k) (cx cy w h : ℚ) : Row ℚ (a.oneBoxShape k) where
  data :=
    match a.version with
    | .v5 => [cx, cy, w, h, 1] ++ oneHot k c
    | .v8 => [cx, cy, w, h] ++ oneHot k c
  size_eq := by
    simp only [oneBoxShape]
    cases a.version with
    | v5 => simp [length_oneHot hc]; omega
    | v8 => simp [length_oneHot hc]; omega

/-- Reading a list back element by element. -/
theorem map_range_getD (l : List ℚ) : (List.range l.length).map (fun i => l.getD i 0) = l := by
  refine List.ext_getElem (by simp) fun i h₁ h₂ => ?_
  simp [List.getElem?_eq_getElem h₂]

theorem candidateV5_oneHot (lb : Letterbox) {k c : ℕ} (hc : c < k) (cx cy w h : ℚ)
    (width height : ℤ) {threshold : ℚ} (ht : threshold ≤ 1) :
    candidateV5 lb width height threshold ([cx, cy, w, h, 1] ++ oneHot k c) (5 + k) 0 =
      some (boxDetection lb width height cx cy w h 1 c) := by
  have hscores : (List.range (5 + k - 5)).map
      (fun i => ([cx, cy, w, h, 1] ++ oneHot k c).getD (0 * (5 + k) + 5 + i) 0) = oneHot k c := by
    have hread := map_range_getD (oneHot k c)
    rw [length_oneHot hc] at hread
    rw [Nat.add_sub_cancel_left]
    refine Eq.trans (List.map_congr_left fun i _ => ?_) hread
    rw [Nat.zero_mul, Nat.zero_add, Nat.add_comm]
    rfl
  have hconf : ([cx, cy, w, h, 1] ++ oneHot k c).getD (0 * (5 + k) + 4) 0 = 1 := by
    rw [Nat.zero_mul]; rfl
  unfold candidateV5
  dsimp only
  rw [hscores, hconf, bestClass_oneHot, if_neg (not_lt_of_ge ht), mul_one,
    if_neg (not_lt_of_ge ht), Nat.zero_mul]
  rfl

theorem candidateV8_oneHot (lb : Letterbox) {k c : ℕ} (hc : c < k) (cx cy w h : ℚ)
    (width height : ℤ) {threshold : ℚ} (ht : threshold ≤ 1) :
    candidateV8 lb width height threshold ([cx, cy, w, h] ++ oneHot k c) (4 + k) 1 0 =
      some (boxDetection lb width height cx cy w h 1 c) := by
  have hscores : (List.range (4 + k - 4)).map
      (fun i => ([cx, cy, w, h] ++ oneHot k c).getD ((4 + i) * 1 + 0) 0) = oneHot k c := by
    have hread := map_range_getD (oneHot k c)
    rw [length_oneHot hc] at hread
    rw [Nat.add_sub_cancel_left]
    refine Eq.trans (List.map_congr_left fun i _ => ?_) hread
    rw [Nat.mul_one, Nat.add_zero, Nat.add_comm]
    rfl
  unfold candidateV8
  dsimp only
  rw [hscores, bestClass_oneHot, if_neg (not_lt_of_ge ht)]
  rfl

/-- **The one box is found**, by either version. -/
theorem postProcess_oneBox (srt : DetectionSorter) (a : YoloAdapter) (lb : Letterbox) {k c : ℕ}
    (hc : c < k) (cx cy w h : ℚ) (width height : ℤ) {threshold : ℚ} (ht : threshold ≤ 1)
    (nms : ℚ) :
    a.postProcess srt lb (a.oneBox hc cx cy w h).tensor width height threshold nms =
      some [boxDetection lb width height cx cy w h 1 c] := by
  obtain ⟨version, inputSize, hsize⟩ := a
  cases version with
  | v5 =>
      have hcand : (List.range 1).filterMap (candidateV5 lb width height threshold
          ([cx, cy, w, h, 1] ++ oneHot k c) (5 + k)) =
            [boxDetection lb width height cx cy w h 1 c] := by
        rw [List.range_one, List.filterMap_cons_some (candidateV5_oneHot lb hc cx cy w h _ _ ht)]
        rfl
      show some (applyNms srt _ nms ((List.range 1).filterMap (candidateV5 lb width height threshold
        ([cx, cy, w, h, 1] ++ oneHot k c) (5 + k)))) = _
      rw [hcand, applyNms_singleton]
  | v8 =>
      have hcand : (List.range 1).filterMap (candidateV8 lb width height threshold
          ([cx, cy, w, h] ++ oneHot k c) (4 + k) 1) =
            [boxDetection lb width height cx cy w h 1 c] := by
        rw [List.range_one, List.filterMap_cons_some (candidateV8_oneHot lb hc cx cy w h _ _ ht)]
        rfl
      show some (applyNms srt _ nms ((List.range 1).filterMap (candidateV8 lb width height threshold
        ([cx, cy, w, h] ++ oneHot k c) (4 + k) 1))) = _
      rw [hcand, applyNms_singleton]

end YoloAdapter

end LoongNvr.AiEngine
