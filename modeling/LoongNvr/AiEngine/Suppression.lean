import LoongNvr.AiEngine.YoloAdapter
import LoongNvr.Support.Greedy

/-!
# AI engine — Suppression

Non-maximum suppression in `YoloV5Adapter`, `YoloV8Adapter` and `FaceDetectorAdapter`: three loops
over flags, and each of them is the greedy selection from the sorted boxes in which a box conflicts
with those of its class that it overlaps too much.

* `applyNms_eq`, `FaceDetectorAdapter.applyNms_eq`: the loops are this selection.
* `suppression_right`: the versions agree, and what they keep is characterised.
-/

namespace LoongNvr.AiEngine
open LoongNvr.Core Support

/-! ### The face detector -/

/-- A landmark of a face. -/
structure FaceLandmark where
  x : ℚ := 0
  y : ℚ := 0
  deriving DecidableEq, Repr

/-- A face: its box with the confidence, and eyes, nose and mouth corners. -/
structure FaceDetection where
  box : Detection
  landmarks : Vector FaceLandmark 5 := Vector.replicate 5 {}
  deriving DecidableEq, Repr

namespace FaceDetectorAdapter

/-- `FaceDetectorAdapter::ComputeIou` -/
def computeIou (a b : Detection) : ℚ :=
  let ix1 := max a.x1 b.x1
  let iy1 := max a.y1 b.y1
  let ix2 := min a.x2 b.x2
  let iy2 := min a.y2 b.y2
  let inter := max 0 (ix2 - ix1) * max 0 (iy2 - iy1)
  let areaA := (a.x2 - a.x1) * (a.y2 - a.y1)
  let areaB := (b.x2 - b.x1) * (b.y2 - b.y1)
  let unionArea := areaA + areaB - inter
  if unionArea > 0 then inter / unionArea else 0

/-- How faces are sorted, the most confident first. -/
abbrev FaceSorter := Sorter fun a b : FaceDetection => a.box.confidence > b.box.confidence

/-- One turn of the outer loop: a face not suppressed goes to the result. -/
def keepFace (nmsThreshold : ℚ) (faces : List FaceDetection)
    (acc : List FaceDetection × List Bool) (i : ℕ) : List FaceDetection × List Bool :=
  let (result, suppressed) := acc
  if suppressed.getD i false then acc
  else
    match faces[i]? with
    | none => acc -- the loop stays inside the list
    | some face =>
        (result ++ [face],
          (faces.zip suppressed).mapIdx fun j (later, flag) =>
            flag || (decide (i < j) && decide (computeIou face.box later.box > nmsThreshold)))

/-- `FaceDetectorAdapter::ApplyNMS` -/
def applyNms (srt : FaceSorter) (nmsThreshold : ℚ) (faces : List FaceDetection) :
    List FaceDetection :=
  let sorted := srt.sort faces
  ((List.range sorted.length).foldl (keepFace nmsThreshold sorted)
    ([], List.replicate sorted.length false)).1

end FaceDetectorAdapter

open FaceDetectorAdapter (computeIou)

theorem computeIou_eq_overlap (a b : Detection) :
    computeIou a b =
      if (YoloAdapter.overlap a b).2 > 0 then
        (YoloAdapter.overlap a b).1 / (YoloAdapter.overlap a b).2 else 0 := rfl

theorem computeIou_comm (a b : Detection) : computeIou a b = computeIou b a := by
  simp only [computeIou, max_comm a.x1, max_comm a.y1, min_comm a.x2, min_comm a.y2]
  rw [add_comm ((a.x2 - a.x1) * (a.y2 - a.y1))]

/-! ### The loops as a greedy selection -/

/-- The boxes are of one class and overlap too much. -/
def tooClose (nmsThreshold : ℚ) (a b : Detection) : Bool :=
  decide (a.classId = b.classId) && decide (computeIou a b > nmsThreshold)

section

variable {nmsThreshold : ℚ}

theorem tooClose_iff {a b : Detection} :
    tooClose nmsThreshold a b = true ↔ a.classId = b.classId ∧ computeIou a b > nmsThreshold := by
  rw [tooClose, Bool.and_eq_true, decide_eq_true_iff, decide_eq_true_iff]

theorem tooClose_comm (a b : Detection) :
    tooClose nmsThreshold a b = tooClose nmsThreshold b a := by
  rw [tooClose, tooClose, computeIou_comm, decide_eq_decide.mpr eq_comm]

/-- Either version suppresses the boxes of the class that overlap too much. -/
theorem suppresses_eq (hthreshold : 0 ≤ nmsThreshold) (a : YoloAdapter) :
    a.suppresses nmsThreshold = tooClose nmsThreshold := by
  funext first later
  rw [tooClose, computeIou_eq_overlap, YoloAdapter.suppresses]
  generalize YoloAdapter.overlap first later = p
  obtain ⟨interArea, unionArea⟩ := p
  cases a.version with
  | v5 => rfl
  | v8 =>
      -- a union of no area makes an overlap of 0, which is not above the threshold
      by_cases hunion : unionArea > 0
      · simp [hunion]
      · simp [hunion, hthreshold]

theorem applyNms_eq (hthreshold : 0 ≤ nmsThreshold) (srt : YoloAdapter.DetectionSorter)
    (a : YoloAdapter) (detections : List Detection) :
    a.applyNms srt nmsThreshold detections =
      greedyFrom (tooClose nmsThreshold) [] (srt.sort detections) := by
  have hloop : ∀ sorted : List Detection,
      (List.range sorted.length).foldl (a.suppressBy nmsThreshold sorted)
        (List.replicate sorted.length false) =
          passedFlags (tooClose nmsThreshold) [] sorted := by
    intro sorted
    have hturn : a.suppressBy nmsThreshold sorted = strike (tooClose nmsThreshold) sorted := by
      funext suppressed i
      rw [YoloAdapter.suppressBy, strike, suppresses_eq hthreshold a]
      cases sorted[i]? <;> rfl
    rw [hturn, foldl_strike]
  unfold YoloAdapter.applyNms
  split
  · next hempty =>
      rw [List.isEmpty_iff.mp hempty, List.perm_nil.mp (srt.perm [])]
      rfl
  · dsimp only
    rw [hloop, filter_passedFlags]

/-- The loop of the face detector, which does not look at the class. -/
theorem FaceDetectorAdapter.applyNms_eq (srt : FaceSorter) (faces : List FaceDetection) :
    applyNms srt nmsThreshold faces =
      greedyFrom (fun a b => decide (computeIou a.box b.box > nmsThreshold)) []
        (srt.sort faces) := by
  have hturn : keepFace nmsThreshold (srt.sort faces) =
      strikeKeeping (fun a b : FaceDetection => decide (computeIou a.box b.box > nmsThreshold))
        (srt.sort faces) := by
    funext ⟨result, suppressed⟩ i
    simp only [keepFace, strikeKeeping, strike]
    split
    · rfl
    · cases (srt.sort faces)[i]? with
      | none => simp
      | some face => rfl
  unfold applyNms
  dsimp only
  rw [hturn, foldl_strikeKeeping]

/-- On faces of one class it keeps what the other detectors keep. -/
theorem FaceDetectorAdapter.map_box_applyNms (hthreshold : 0 ≤ nmsThreshold)
    {faces : List FaceDetection}
    (hclass : ∀ f ∈ faces, ∀ g ∈ faces, f.box.classId = g.box.classId) (fsrt : FaceSorter)
    (srt : YoloAdapter.DetectionSorter) (a : YoloAdapter)
    (hsort : (fsrt.sort faces).map (·.box) = srt.sort (faces.map (·.box))) :
    (applyNms fsrt nmsThreshold faces).map (·.box) =
      a.applyNms srt nmsThreshold (faces.map (·.box)) := by
  rw [applyNms_eq, AiEngine.applyNms_eq hthreshold, ← hsort]
  refine Eq.trans ?_ (greedyFrom_map FaceDetection.box [] (fsrt.sort faces)).symm
  refine congrArg (List.map FaceDetection.box) (greedyFrom_congr (fun _ ht => by cases ht) ?_)
  intro f hf g hg
  rw [tooClose, hclass f (fsrt.mem.mp hf) g (fsrt.mem.mp hg), decide_eq_true rfl, Bool.true_and]

/-! ### What is kept -/

/-- What suppression makes of a list, and of the boxes of each class. -/
structure Suppressed (apply : YoloAdapter.DetectionSorter → List Detection → List Detection)
    (srt : YoloAdapter.DetectionSorter) (nmsThreshold : ℚ) (detections kept : List Detection) :
    Prop where
  sublist : kept.Sublist (srt.sort detections)
  ordered : kept.Pairwise fun a b => a.confidence ≥ b.confidence
  apart : kept.Pairwise fun a b => a.classId = b.classId → computeIou a b ≤ nmsThreshold
  covered : ∃ removed : List Detection, (kept ++ removed).Perm detections ∧
    ∀ r ∈ removed, ∃ k ∈ kept, k.classId = r.classId ∧ k.confidence ≥ r.confidence ∧
      computeIou k r > nmsThreshold
  again : ∀ srt', (apply srt' kept).Perm kept ∧
    (apply srt' kept).map (·.confidence) = kept.map (·.confidence)
  class_alone : ∀ (c : ℤ) (srt' : YoloAdapter.DetectionSorter),
    srt'.sort (detections.filter (·.classId == c)) =
        (srt.sort detections).filter (·.classId == c) →
      kept.filter (·.classId == c) = apply srt' (detections.filter (·.classId == c))

/-- Two lists in the same order of confidence, with the same elements. -/
theorem map_confidence_eq {l l' : List Detection} (hperm : l.Perm l')
    (hl : l.Pairwise fun a b => a.confidence ≥ b.confidence)
    (hl' : l'.Pairwise fun a b => a.confidence ≥ b.confidence) :
    l.map (·.confidence) = l'.map (·.confidence) := by
  refine List.Perm.eq_of_pairwise (fun a b _ _ hab hba => le_antisymm hba hab)
    (List.pairwise_map.mpr hl) (List.pairwise_map.mpr hl') (hperm.map _)

theorem sort_ordered (srt : YoloAdapter.DetectionSorter) (detections : List Detection) :
    (srt.sort detections).Pairwise fun a b => a.confidence ≥ b.confidence :=
  (srt.sorted detections).imp fun h => not_lt.mp h

/-- **What suppression keeps.** -/
theorem suppressed_applyNms (hthreshold : 0 ≤ nmsThreshold) (srt : YoloAdapter.DetectionSorter)
    (a : YoloAdapter) (detections : List Detection) :
    Suppressed (fun srt' => a.applyNms srt' nmsThreshold) srt nmsThreshold detections
      (a.applyNms srt nmsThreshold detections) := by
  have hsublist := @greedyFrom_sublist _ (tooClose nmsThreshold) [] (srt.sort detections)
  have hordered := (sort_ordered srt detections).sublist hsublist
  have hpairwise := @greedyFrom_pairwise _ (tooClose nmsThreshold) [] (srt.sort detections)
  rw [applyNms_eq hthreshold]
  refine ⟨hsublist, hordered, ?_, ?_, fun srt' => ?_, fun c srt' hsort => ?_⟩
  · refine hpairwise.imp fun hclear hclass => not_lt.mp fun hover => ?_
    exact Bool.false_ne_true (hclear.symm.trans (tooClose_iff.mpr ⟨hclass, hover⟩))
  · refine ⟨passedFrom (tooClose nmsThreshold) [] (srt.sort detections),
      (greedyFrom_append_passedFrom _ _).trans (srt.perm detections), fun r hr => ?_⟩
    rcases passed_covered (sort_ordered srt detections) hr with ⟨_, ht, _⟩ | ⟨k, hk, hconf, hclose⟩
    · cases ht
    · obtain ⟨hclass, hover⟩ := tooClose_iff.mp hclose
      exact ⟨k, hk, hclass, hconf, hover⟩
  · -- sorted again, what is kept still has no conflicts
    have hperm := srt'.perm (greedyFrom (tooClose nmsThreshold) [] (srt.sort detections))
    have hclear : (srt'.sort (greedyFrom (tooClose nmsThreshold) [] (srt.sort detections))).Pairwise
        fun a b => tooClose nmsThreshold a b = false :=
      hpairwise.perm hperm.symm fun h => (tooClose_comm _ _).trans h
    rw [applyNms_eq hthreshold, greedyFrom_eq_self (fun _ ht => by cases ht) hclear]
    exact ⟨hperm, map_confidence_eq hperm (sort_ordered srt' _) hordered⟩
  · rw [applyNms_eq hthreshold, hsort]
    refine greedyFrom_filter _ (fun a b hclose => ?_) [] _
    rw [(tooClose_iff.mp hclose).1]

/-- **Non-maximum suppression**: the adapters agree, and what they keep is characterised. -/
theorem suppression_right (hthreshold : 0 ≤ nmsThreshold) (srt : YoloAdapter.DetectionSorter)
    (a : YoloAdapter) (detections : List Detection) :
    (∀ b : YoloAdapter,
      b.applyNms srt nmsThreshold detections = a.applyNms srt nmsThreshold detections) ∧
    (∀ (fsrt : FaceDetectorAdapter.FaceSorter) (faces : List FaceDetection),
      faces.map (·.box) = detections →
      (∀ f ∈ faces, ∀ g ∈ faces, f.box.classId = g.box.classId) →
      (fsrt.sort faces).map (·.box) = srt.sort detections →
        (FaceDetectorAdapter.applyNms fsrt nmsThreshold faces).map (·.box) =
          a.applyNms srt nmsThreshold detections) ∧
    Suppressed (fun srt' => a.applyNms srt' nmsThreshold) srt nmsThreshold detections
      (a.applyNms srt nmsThreshold detections) := by
  refine ⟨fun b => ?_, ?_, suppressed_applyNms hthreshold srt a detections⟩
  · rw [applyNms_eq hthreshold, applyNms_eq hthreshold]
  · rintro fsrt faces rfl hclass hsort
    exact FaceDetectorAdapter.map_box_applyNms hthreshold hclass fsrt srt a hsort

end

/-- A square box. -/
def square (x side confidence : ℚ) (classId : ℤ) : Detection where
  x1 := x
  y1 := 0
  x2 := x + side
  y2 := side
  confidence := confidence
  classId := classId
  className := ""

/-- Two people close together and a dog. -/
def crowd : List Detection :=
  [square 1 10 (3 / 5) 0, square 0 10 (9 / 10) 0, square 0 10 (1 / 2) 16]

theorem standardSize_pos : 0 < 640 := Nat.succ_pos 639

/-- An adapter of the usual input size. -/
def standardAdapter (version : YoloVersion) : YoloAdapter where
  version := version
  inputSize := 640
  inputSize_pos := standardSize_pos

/-- The less certain of the people is left out, the dog in the same place is not. -/
theorem suppression_right_crowd :
    Suppressed (fun srt' => YoloAdapter.applyNms srt' (standardAdapter .v8) (1 / 2))
        YoloAdapter.byConfidence (1 / 2) crowd [square 0 10 (9 / 10) 0, square 0 10 (1 / 2) 16] ∧
      YoloAdapter.applyNms YoloAdapter.byConfidence (standardAdapter .v5) (1 / 2) crowd =
        [square 0 10 (9 / 10) 0, square 0 10 (1 / 2) 16] := by
  have hkept : YoloAdapter.applyNms YoloAdapter.byConfidence (standardAdapter .v8) (1 / 2) crowd =
      [square 0 10 (9 / 10) 0, square 0 10 (1 / 2) 16] := by decide +kernel
  obtain ⟨hversions, -, hsuppressed⟩ := @suppression_right (1 / 2)
    (div_nonneg zero_le_one zero_le_two) YoloAdapter.byConfidence (standardAdapter .v8) crowd
  rw [hkept] at hsuppressed
  exact ⟨hsuppressed, (hversions _).trans hkept⟩

end LoongNvr.AiEngine
