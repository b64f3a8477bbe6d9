import LoongNvr.AiEngine.YoloAdapter
import Mathlib.Tactic.Linarith
import Mathlib.Tactic.FieldSimp

/-!
# AI engine — InferenceEngine

`InferenceEngine::Infer` and `InferBatch` over a backend and a YOLO adapter.  The backend is a
parameter: what it answers depends on its input alone.

The engine is a state, since preprocessing leaves its letterbox in the adapter.
`PreProcessBatch` preprocesses all images before `PostProcessBatch` maps the first box back, and
the adapter has one letterbox: the last image's.  A batch therefore agrees with the single images
exactly when they all have that letterbox (`batchAgrees_iff`).

* `inferBatch_sequential`: without native batches, `InferBatch` is `Infer` image by image.
* `inferBatch_native`: what a batch answers, by the rows of the output.
* `letterbox_determined`: a letterbox is known from where it maps two points inside the picture.
-/

namespace LoongNvr.AiEngine
open LoongNvr.Core Support YoloAdapter

/-- An `InferenceBackend`; `runInference` is `none` where it returns false. -/
structure InferenceBackend where
  isLoaded : Bool
  supportsBatch : Bool
  maxBatchSize : ℤ
  runInference : Tensor ℚ → Option (Tensor ℚ)

/-- The engine's state. -/
structure InferenceEngine where
  backend : InferenceBackend
  adapter : YoloAdapter
  letterbox : Letterbox := {}

/-- The suppression threshold of the engine. -/
def engineNmsThreshold : ℚ := 9 / 20

/-- A backend that answers every row with the same output. -/
def constBackend {s : List ℕ} (out : Row ℚ s) (maxBatchSize : ℤ) : InferenceBackend where
  isLoaded := true
  supportsBatch := true
  maxBatchSize := maxBatchSize
  runInference input :=
    match input.shape with
    | [] => none
    | batchSize :: _ => some (stack (List.replicate batchSize out))

theorem constBackend_row {s s' : List ℕ} (out : Row ℚ s) (maxBatchSize : ℤ) (r : Row ℚ s') :
    (constBackend out maxBatchSize).runInference r.tensor = some out.tensor :=
  congrArg some (stack_singleton out)

namespace InferenceEngine

variable (cv : OpenCv) (srt : DetectionSorter)

/-- Preprocess, infer and postprocess one image. -/
def runSingle (engine : InferenceEngine) (image : Image)
    (confidenceThreshold nmsThreshold : ℚ) : InferenceEngine × Option (List Detection) :=
  let (letterbox, input) := engine.adapter.preProcess cv image
  let engine := { engine with letterbox := letterbox }
  match engine.backend.runInference input.tensor with
  | none => (engine, none)
  | some output =>
      (engine, engine.adapter.postProcess srt engine.letterbox output image.width image.height
        confidenceThreshold nmsThreshold)

/-- `InferenceEngine::Infer`, with its suppression threshold as an argument; `none` where it
returns false. -/
def inferWith (engine : InferenceEngine) (image : Image) (confidenceThreshold nmsThreshold : ℚ) :
    InferenceEngine × Option (List Detection) :=
  if !engine.backend.isLoaded then (engine, none)
  else engine.runSingle cv srt image confidenceThreshold nmsThreshold

/-- `InferenceEngine::Infer` -/
def infer (engine : InferenceEngine) (image : Image) (confidenceThreshold : ℚ) :
    InferenceEngine × Option (List Detection) :=
  engine.inferWith cv srt image confidenceThreshold engineNmsThreshold

/-- `YoloModelAdapter::PreProcessBatch`: one picture after the other, each leaving its letterbox
in the adapter. -/
def preProcessBatch (engine : InferenceEngine) (images : List Image) :
    InferenceEngine × Tensor ℚ :=
  ({ engine with
      letterbox := images.foldl (fun _ image => (engine.adapter.preProcess cv image).1)
        engine.letterbox },
    stack (images.map fun image => (engine.adapter.preProcess cv image).2))

/-- One turn of the loop of `PostProcessBatch`; a failed image keeps its empty list. -/
def postProcessRow (engine : InferenceEngine) (images : List Image)
    (confidenceThreshold nmsThreshold : ℚ) {s : List ℕ} (i : ℕ) (row : Row ℚ s) : List Detection :=
  match images[i]? with
  | none => [] -- an output of more rows than images
  | some image =>
      (engine.adapter.postProcess srt engine.letterbox row.tensor image.width image.height
        confidenceThreshold nmsThreshold).getD []

/-- `YoloModelAdapter::PostProcessBatch` on a batch of results that are cleared. -/
def postProcessBatch (engine : InferenceEngine) (output : Tensor ℚ) (images : List Image)
    (confidenceThreshold nmsThreshold : ℚ) : Option (List (List Detection)) :=
  match h : output.shape with
  | [] => none
  | batchSize :: _ =>
      if images.isEmpty then none
      else some (List.ofFn fun i : Fin batchSize =>
        engine.postProcessRow srt images confidenceThreshold nmsThreshold i (output.row h i))

/-- One turn of the fallback loop. -/
def inferNext (confidenceThreshold nmsThreshold : ℚ)
    (acc : InferenceEngine × List (List Detection)) (image : Image) :
    InferenceEngine × List (List Detection) :=
  let (engine, detections) := acc.1.runSingle cv srt image confidenceThreshold nmsThreshold
  (engine, acc.2 ++ [detections.getD []])

/-- `InferenceEngine::InferBatch`, with its suppression threshold as an argument. -/
def inferBatchWith (engine : InferenceEngine) (images : List Image)
    (confidenceThreshold nmsThreshold : ℚ) : InferenceEngine × Option (List (List Detection)) :=
  if images.isEmpty then (engine, some [])
  else if !engine.backend.isLoaded then (engine, none)
  else if engine.backend.supportsBatch ∧ (images.length : ℤ) ≤ engine.backend.maxBatchSize then
    let (engine, input) := engine.preProcessBatch cv images
    match engine.backend.runInference input with
    | none => (engine, none)
    | some output =>
        (engine, engine.postProcessBatch srt output images confidenceThreshold nmsThreshold)
  else
    let (engine, detections) :=
      images.foldl (inferNext cv srt confidenceThreshold nmsThreshold) (engine, [])
    (engine, some detections)

/-- `InferenceEngine::InferBatch` -/
def inferBatch (engine : InferenceEngine) (images : List Image) (confidenceThreshold : ℚ) :
    InferenceEngine × Option (List (List Detection)) :=
  engine.inferBatchWith cv srt images confidenceThreshold engineNmsThreshold

/-! ### One image after the other -/

variable {cv srt}

/-- What the engine answers for an image does not depend on the letterbox it holds. -/
theorem runSingle_eq (engine : InferenceEngine) (image : Image) (confidence nms : ℚ) :
    engine.runSingle cv srt image confidence nms =
      ({ engine with letterbox := engine.adapter.letterbox image.width image.height },
        (engine.backend.runInference (engine.adapter.preProcess cv image).2.tensor).bind fun output =>
          engine.adapter.postProcess srt (engine.adapter.letterbox image.width image.height) output
            image.width image.height confidence nms) := by
  simp only [runSingle]
  cases engine.backend.runInference (engine.adapter.preProcess cv image).2.tensor <;> rfl

/-- What an image gets where the backend answers. -/
theorem infer_of_output (engine : InferenceEngine) (image : Image) (confidence nms : ℚ)
    (hload : engine.backend.isLoaded = true) {s : List ℕ} {out : Row ℚ s}
    (hrun : engine.backend.runInference (engine.adapter.preProcess cv image).2.tensor =
      some out.tensor) :
    (engine.inferWith cv srt image confidence nms).2 =
      engine.adapter.postProcess srt (engine.adapter.letterbox image.width image.height) out.tensor
        image.width image.height confidence nms := by
  simp only [inferWith, hload, runSingle_eq, hrun, Option.bind_some]
  rfl

variable (cv srt) in
theorem foldl_inferNext (engine : InferenceEngine) (images : List Image) (confidence nms : ℚ)
    (letterbox : Letterbox) (done : List (List Detection)) :
    (images.foldl (inferNext cv srt confidence nms)
        ({ engine with letterbox := letterbox }, done)).2 =
      done ++ images.map fun image =>
        (engine.runSingle cv srt image confidence nms).2.getD [] := by
  induction images generalizing letterbox done with
  | nil => simp
  | cons image images ih =>
      have hsame : ({ engine with letterbox := letterbox } : InferenceEngine).runSingle cv srt image
          confidence nms = engine.runSingle cv srt image confidence nms := by
        rw [runSingle_eq, runSingle_eq]
      rw [List.foldl_cons, List.map_cons, inferNext]
      dsimp only
      rw [hsame, runSingle_eq, ih]
      simp

/-- **The fallback path** answers what `Infer` answers for each image. -/
theorem inferBatch_sequential (engine : InferenceEngine) {images : List Image} (confidence nms : ℚ)
    (hne : images ≠ []) (hload : engine.backend.isLoaded = true)
    (hnot : ¬ (engine.backend.supportsBatch ∧
      (images.length : ℤ) ≤ engine.backend.maxBatchSize)) :
    (engine.inferBatchWith cv srt images confidence nms).2 =
      some (images.map fun image => (engine.inferWith cv srt image confidence nms).2.getD []) := by
  have hempty : images.isEmpty = false := by simpa using hne
  have hfold := foldl_inferNext cv srt engine images confidence nms engine.letterbox []
  simp only [inferBatchWith, hempty, hload, if_neg hnot, inferWith]
  rw [List.nil_append] at hfold
  exact congrArg some hfold

/-- **What `Infer` answers** does not depend on the letterbox left by an earlier call. -/
theorem infer_letterbox (engine : InferenceEngine) (letterbox : Letterbox) (image : Image)
    (confidence : ℚ) :
    (({ engine with letterbox := letterbox } : InferenceEngine).infer cv srt image confidence).2 =
      (engine.infer cv srt image confidence).2 := by
  simp only [infer, inferWith, runSingle_eq]
  split <;> rfl

end InferenceEngine

/-! ### Engines by what they answer -/

/-- An inference engine of any adapter, by what it answers for a picture and a threshold; `none`
where it returns false. -/
structure Detector where
  infer : Image → ℚ → Option (List Detection)

/-- An engine over a YOLO adapter. -/
def InferenceEngine.detector (cv : OpenCv) (srt : DetectionSorter) (engine : InferenceEngine) :
    Detector where
  infer image confidenceThreshold := (engine.infer cv srt image confidenceThreshold).2

/-! ### Backends that treat a batch row by row -/

/-- **The output of a batch is the concatenation of the outputs of its rows.** -/
def InferenceBackend.Concatenates {s : List ℕ} (backend : InferenceBackend)
    (rs : List (Row ℚ s)) : Prop :=
  ∃ (s' : List ℕ) (outs : List (Row ℚ s')),
    List.Forall₂ (fun r out => backend.runInference r.tensor = some out.tensor) rs outs ∧
      backend.runInference (stack rs) = some (stack outs)

/-- A backend that concatenates on every batch. -/
def InferenceBackend.RowByRow (backend : InferenceBackend) : Prop :=
  ∀ (s : List ℕ) (rs : List (Row ℚ s)), rs ≠ [] → backend.Concatenates rs

theorem constBackend_rowByRow {s : List ℕ} (out : Row ℚ s) (maxBatchSize : ℤ) :
    (constBackend out maxBatchSize).RowByRow := by
  rintro s' rs -
  refine ⟨s, List.replicate rs.length out, ?_, rfl⟩
  refine List.forall₂_iff_get.mpr ⟨List.length_replicate.symm, ?_⟩
  intro i h₁ h₂
  simp only [List.get_eq_getElem, List.getElem_replicate]
  exact constBackend_row out maxBatchSize _

/-! ### What a batch answers -/

/-- A fold that forgets what it had keeps the last value. -/
theorem foldl_forget {α β : Type*} (f : α → β) (l : List α) (b : β) :
    l.foldl (fun _ x => f x) b = (l.getLast?.map f).getD b := by
  induction l generalizing b with
  | nil => rfl
  | cons x l ih =>
      rw [List.foldl_cons, ih, List.getLast?_cons]
      cases l.getLast? <;> rfl

namespace InferenceEngine

variable {cv : OpenCv} {srt : DetectionSorter}

/-- The letterbox the adapter holds after a batch: the last image's. -/
def batchLetterbox (engine : InferenceEngine) (images : List Image) : Letterbox :=
  (images.getLast?.map fun image => engine.adapter.letterbox image.width image.height).getD
    engine.letterbox

/-- Postprocessing a batch, row by row. -/
theorem postProcessBatch_stack (engine : InferenceEngine) {images : List Image}
    (confidence nms : ℚ) (hne : images ≠ []) {s : List ℕ} {outs : List (Row ℚ s)}
    (hlen : outs.length = images.length) :
    engine.postProcessBatch srt (stack outs) images confidence nms =
      some (List.zipWith (fun image out =>
        (engine.adapter.postProcess srt engine.letterbox (Row.tensor out) image.width image.height
          confidence nms).getD []) images outs) := by
  have hempty : images.isEmpty = false := by simpa using hne
  have hunfold : engine.postProcessBatch srt (stack outs) images confidence nms =
      if images.isEmpty then none
      else some (List.ofFn fun i : Fin outs.length =>
        engine.postProcessRow srt images confidence nms i ((stack outs).row rfl i)) := rfl
  rw [hunfold, hempty, if_neg Bool.false_ne_true]
  refine congrArg some (List.ext_getElem ?_ fun i h₁ h₂ => ?_)
  · rw [List.length_ofFn, List.length_zipWith, hlen, min_self]
  · have hi : i < outs.length := by rwa [List.length_ofFn] at h₁
    have himage : images[i]? = some images[i] := List.getElem?_eq_getElem (hlen ▸ hi)
    rw [List.getElem_ofFn, List.getElem_zipWith, postProcessRow, himage,
      row_stack outs rfl ⟨i, hi⟩ hi]

/-- **The native path** maps every row back with the letterbox of the last image. -/
theorem inferBatch_native (engine : InferenceEngine) {images : List Image} (confidence nms : ℚ)
    (hne : images ≠ []) (hload : engine.backend.isLoaded = true)
    (hbatch : engine.backend.supportsBatch ∧ (images.length : ℤ) ≤ engine.backend.maxBatchSize)
    {s : List ℕ} {outs : List (Row ℚ s)} (hlen : outs.length = images.length)
    (hrun : engine.backend.runInference
      (stack (images.map fun image => (engine.adapter.preProcess cv image).2)) =
        some (stack outs)) :
    (engine.inferBatchWith cv srt images confidence nms).2 =
      some (List.zipWith (fun image out =>
        (engine.adapter.postProcess srt (engine.batchLetterbox images) (Row.tensor out) image.width
          image.height confidence nms).getD []) images outs) := by
  have hempty : images.isEmpty = false := by simpa using hne
  have hlast : images.foldl (fun _ image => (engine.adapter.preProcess cv image).1)
      engine.letterbox = engine.batchLetterbox images :=
    foldl_forget (fun image : Image => engine.adapter.letterbox image.width image.height) _ _
  simp only [inferBatchWith, hempty, hload, if_pos hbatch, preProcessBatch, hrun, hlast,
    Bool.false_eq_true, if_false, Bool.not_true]
  exact postProcessBatch_stack { engine with letterbox := engine.batchLetterbox images }
    confidence nms hne hlen

/-- **One letterbox for all** is enough: the batch then answers what the single images do. -/
theorem inferBatch_eq_of_letterbox (engine : InferenceEngine) {images : List Image}
    (confidence nms : ℚ) (hne : images ≠ []) (hload : engine.backend.isLoaded = true)
    (hbatch : engine.backend.supportsBatch ∧ (images.length : ℤ) ≤ engine.backend.maxBatchSize)
    (hconcat : engine.backend.Concatenates
      (images.map fun image => (engine.adapter.preProcess cv image).2))
    (hsame : ∀ image ∈ images,
      engine.adapter.letterbox image.width image.height = engine.batchLetterbox images) :
    (engine.inferBatchWith cv srt images confidence nms).2 =
      some (images.map fun image => (engine.inferWith cv srt image confidence nms).2.getD []) := by
  obtain ⟨s, outs, hsingle, hrun⟩ := hconcat
  have hlen : outs.length = images.length := by
    rw [← hsingle.length_eq, List.length_map]
  rw [inferBatch_native engine confidence nms hne hload hbatch hlen hrun]
  refine congrArg some (List.ext_getElem ?_ fun i h₁ h₂ => ?_)
  · rw [List.length_zipWith, hlen, min_self, List.length_map]
  · have hi : i < images.length := by rwa [List.length_map] at h₂
    have hout : engine.backend.runInference (engine.adapter.preProcess cv images[i]).2.tensor =
        some outs[i].tensor := by
      have hget := (List.forall₂_iff_get.mp hsingle).2 i (by rwa [List.length_map]) (by rwa [hlen])
      simpa using hget
    rw [List.getElem_zipWith, List.getElem_map,
      infer_of_output engine images[i] confidence nms hload hout,
      hsame images[i] (List.getElem_mem hi)]

end InferenceEngine

/-! ### Where a letterbox maps -/

theorem letterboxScale_eq (a : YoloAdapter) {width height : ℤ} (hw : 0 < width) (hh : 0 < height) :
    a.letterboxScale width height = a.inputSize / ((max width height : ℤ) : ℚ) := by
  have hw' : (0 : ℚ) < width := Int.cast_pos.mpr hw
  have hh' : (0 : ℚ) < height := Int.cast_pos.mpr hh
  have hsize : (0 : ℚ) ≤ a.inputSize := Nat.cast_nonneg _
  simp only [letterboxScale]
  by_cases hle : width ≤ height
  · have hle' : (width : ℚ) ≤ height := Int.cast_le.mpr hle
    rw [max_eq_right hle, min_eq_right (div_le_div_of_nonneg_left hsize hw' hle')]
  · have hle' : (height : ℚ) ≤ width := Int.cast_le.mpr (not_le.mp hle).le
    rw [max_eq_left (not_le.mp hle).le, min_eq_left (div_le_div_of_nonneg_left hsize hh' hle')]

theorem letterboxScale_pos (a : YoloAdapter) {width height : ℤ} (hw : 0 < width)
    (hh : 0 < height) : 0 < a.letterboxScale width height :=
  lt_min (div_pos (Nat.cast_pos.mpr a.inputSize_pos) (Int.cast_pos.mpr hw))
    (div_pos (Nat.cast_pos.mpr a.inputSize_pos) (Int.cast_pos.mpr hh))

/-- The scale tells the longer side. -/
theorem letterboxScale_inj (a : YoloAdapter) {image image' : Image} :
    a.letterboxScale image.width image.height = a.letterboxScale image'.width image'.height ↔
      max image.width image.height = max image'.width image'.height := by
  have hsize : (a.inputSize : ℚ) ≠ 0 := Nat.cast_ne_zero.mpr a.inputSize_pos.ne'
  rw [letterboxScale_eq a image.width_pos image.height_pos,
    letterboxScale_eq a image'.width_pos image'.height_pos, div_eq_mul_inv, div_eq_mul_inv,
    mul_right_inj' hsize, inv_inj, Int.cast_inj]

/-- A point inside the picture comes from its own place in the letterbox. -/
theorem mapBack_own {scale x : ℚ} {size : ℤ} (pad : ℤ) (hscale : scale ≠ 0) (hpos : 0 ≤ x)
    (hle : x ≤ size) : mapBack scale pad size (x * scale + pad) = x := by
  rw [mapBack, add_sub_cancel_right, mul_div_cancel_right₀ _ hscale, min_eq_left hle,
    max_eq_right hpos]

/-- Clamping moves nothing strictly inside. -/
theorem of_mapBack {scale x v : ℚ} {pad size : ℤ} (hscale : scale ≠ 0) (hpos : 0 < x)
    (hlt : x < size) (h : mapBack scale pad size v = x) : v = x * scale + pad := by
  have hinside : (v - pad) / scale = x := by
    -- a clamped point would lie on the border
    unfold mapBack at h
    rcases le_total ((v - pad) / scale) size with hv | hv
    · rw [min_eq_left hv] at h
      rcases le_total 0 ((v - pad) / scale) with hv₀ | hv₀
      · rwa [max_eq_right hv₀] at h
      · rw [max_eq_left hv₀] at h
        exact absurd h hpos.ne
    · rw [min_eq_right hv, max_eq_right (hpos.trans hlt).le] at h
      exact absurd h hlt.ne'
  have hmul : v - pad = x * scale := (div_eq_iff hscale).mp hinside
  linarith

/-- **Two points determine the map**: if another scale and padding map the points at a third and
at two thirds of the side back to where they were, they are the same. -/
theorem mapBack_determined {scale scale' : ℚ} {pad pad' size : ℤ} (hsize : 0 < size)
    (hscale' : scale' ≠ 0)
    (h₁ : mapBack scale' pad' size (size / 3 * scale + pad) = size / 3)
    (h₂ : mapBack scale' pad' size (size * 2 / 3 * scale + pad) = size * 2 / 3) :
    scale' = scale ∧ pad' = pad := by
  have hpos : (0 : ℚ) < size := Int.cast_pos.mpr hsize
  have e₁ := of_mapBack hscale' (by linarith) (by linarith) h₁
  have e₂ := of_mapBack hscale' (by linarith) (by linarith) h₂
  have hthird : (size : ℚ) / 3 * scale' = size / 3 * scale := by linarith
  have hscale : scale' = scale := mul_left_cancel₀ (by linarith) hthird
  refine ⟨hscale, ?_⟩
  rw [hscale] at e₁
  exact Int.cast_injective (add_left_cancel e₁).symm

/-- The corners of a box around the middle third of a side. -/
theorem middleThird (scale : ℚ) (pad size : ℤ) :
    size / 2 * scale + pad - size / 3 * scale / 2 = (size / 3 * scale + pad : ℚ) ∧
      size / 2 * scale + pad + size / 3 * scale / 2 = (size * 2 / 3 * scale + pad : ℚ) := by
  constructor <;> ring

/-- An output with one box on the middle third of a picture, in that picture's letterbox. -/
def middleBox (a : YoloAdapter) (image : Image) : Row ℚ (a.oneBoxShape 1) :=
  let lb := a.letterbox image.width image.height
  a.oneBox Nat.one_pos (image.width / 2 * lb.scaleX + lb.padX)
    (image.height / 2 * lb.scaleY + lb.padY) (image.width / 3 * lb.scaleX)
    (image.height / 3 * lb.scaleY)

/-- The box as another letterbox of the adapter maps it back. -/
theorem postProcess_middleBox (srt : DetectionSorter) (a : YoloAdapter) (image : Image)
    (lb : Letterbox) (nms : ℚ) :
    let own := a.letterbox image.width image.height
    a.postProcess srt lb (middleBox a image).tensor image.width image.height 1 nms =
      some [{ x1 := mapBack lb.scaleX lb.padX image.width (image.width / 3 * own.scaleX + own.padX)
              y1 := mapBack lb.scaleY lb.padY image.height
                (image.height / 3 * own.scaleY + own.padY)
              x2 := mapBack lb.scaleX lb.padX image.width
                (image.width * 2 / 3 * own.scaleX + own.padX)
              y2 := mapBack lb.scaleY lb.padY image.height
                (image.height * 2 / 3 * own.scaleY + own.padY)
              confidence := 1
              classId := 0
              className := "" }] := by
  intro own
  obtain ⟨hx₁, hx₂⟩ := middleThird own.scaleX own.padX image.width
  obtain ⟨hy₁, hy₂⟩ := middleThird own.scaleY own.padY image.height
  rw [middleBox, postProcess_oneBox srt a lb Nat.one_pos _ _ _ _ _ _ le_rfl, boxDetection]
  rw [hx₁, hx₂, hy₁, hy₂]
  rfl

/-- **A letterbox is known from the box it maps back.** -/
theorem letterbox_determined {srt : DetectionSorter} {a : YoloAdapter} {image last : Image}
    {nms : ℚ}
    (h : (a.postProcess srt (a.letterbox last.width last.height) (middleBox a image).tensor
        image.width image.height 1 nms).getD [] =
      (a.postProcess srt (a.letterbox image.width image.height) (middleBox a image).tensor
        image.width image.height 1 nms).getD []) :
    a.letterbox image.width image.height = a.letterbox last.width last.height := by
  have hscale := (letterboxScale_pos a image.width_pos image.height_pos).ne'
  have hscale' := (letterboxScale_pos a last.width_pos last.height_pos).ne'
  have hw : (0 : ℚ) < image.width := Int.cast_pos.mpr image.width_pos
  have hh : (0 : ℚ) < image.height := Int.cast_pos.mpr image.height_pos
  rw [postProcess_middleBox, postProcess_middleBox, Option.getD_some, Option.getD_some] at h
  injection h with h
  injection h with hx₁ hy₁ hx₂ hy₂
  dsimp only [letterbox] at hx₁ hx₂ hy₁ hy₂
  -- its own letterbox maps the corners back to where they are, so the other one does, too
  rw [mapBack_own _ hscale (by linarith) (by linarith)] at hx₁ hx₂ hy₁ hy₂
  obtain ⟨hs, hpx⟩ := mapBack_determined image.width_pos hscale' hx₁ hx₂
  obtain ⟨-, hpy⟩ := mapBack_determined image.height_pos hscale' hy₁ hy₂
  simp only [letterbox]
  rw [hs, hpx, hpy]

/-! ### The exact condition -/

/-- **Batch inference agrees with single-frame inference** on a list of images: for every engine
over the adapter, at every threshold. -/
def BatchAgrees (cv : OpenCv) (srt : DetectionSorter) (a : YoloAdapter) (images : List Image) :
    Prop :=
  ∀ engine : InferenceEngine, engine.adapter = a → engine.backend.isLoaded = true →
    engine.backend.supportsBatch = true → (images.length : ℤ) ≤ engine.backend.maxBatchSize →
      engine.backend.RowByRow → ∀ confidence nms : ℚ,
        (engine.inferBatchWith cv srt images confidence nms).2 =
          some (images.map fun image =>
            (engine.inferWith cv srt image confidence nms).2.getD [])

/-- Two images fit the input square in the same way: they have the same longer side, and the same
room left beside and above them. -/
def SameFit (a : YoloAdapter) (image last : Image) : Prop :=
  max image.width image.height = max last.width last.height ∧
    (a.letterbox image.width image.height).padX = (a.letterbox last.width last.height).padX ∧
    (a.letterbox image.width image.height).padY = (a.letterbox last.width last.height).padY

theorem sameFit_iff {a : YoloAdapter} {image last : Image} :
    SameFit a image last ↔
      a.letterbox image.width image.height = a.letterbox last.width last.height := by
  rw [SameFit, ← letterboxScale_inj a, Letterbox.mk.injEq]
  constructor
  · rintro ⟨hscale, hpadX, hpadY⟩
    exact ⟨hscale, hscale, hpadX, hpadY⟩
  · rintro ⟨hscale, -, hpadX, hpadY⟩
    exact ⟨hscale, hpadX, hpadY⟩

theorem batchLetterbox_of_getLast {engine : InferenceEngine} {images : List Image} {last : Image}
    (h : last ∈ images.getLast?) :
    engine.batchLetterbox images = engine.adapter.letterbox last.width last.height := by
  rw [InferenceEngine.batchLetterbox, Option.mem_def.mp h]
  rfl

/-- Agreement on one well-placed box shows how an image fits. -/
theorem BatchAgrees.sameFit {cv : OpenCv} {srt : DetectionSorter} {a : YoloAdapter}
    {images : List Image} (h : BatchAgrees cv srt a images) {image last : Image}
    (hlast : last ∈ images.getLast?) (himage : image ∈ images) : SameFit a image last := by
  have hne : images ≠ [] := List.ne_nil_of_mem himage
  -- A backend that finds one box everywhere, where this image's letterbox can map it back.
  let engine : InferenceEngine :=
    { backend := constBackend (middleBox a image) images.length, adapter := a }
  have hsingle : ∀ other, (engine.inferWith cv srt other 1 0).2 =
      a.postProcess srt (a.letterbox other.width other.height) (middleBox a image).tensor
        other.width other.height 1 0 := fun other =>
    InferenceEngine.infer_of_output engine other 1 0 rfl (constBackend_row _ _ _)
  have hlen : (List.replicate images.length (middleBox a image)).length = images.length :=
    List.length_replicate
  have hrun : engine.backend.runInference
      (stack (images.map fun image => (engine.adapter.preProcess cv image).2)) =
        some (stack (List.replicate images.length (middleBox a image))) := by
    simp [engine, constBackend, stack]
  have hboth := h engine rfl rfl rfl le_rfl (constBackend_rowByRow _ _) 1 0
  rw [InferenceEngine.inferBatch_native engine 1 0 hne rfl ⟨rfl, le_rfl⟩ hlen hrun] at hboth
  obtain ⟨i, hi, rfl⟩ := List.getElem_of_mem himage
  have hat := congrArg (fun l => l[i]?) (Option.some.inj hboth)
  simp only [List.getElem?_zipWith, List.getElem?_replicate, hi, List.getElem?_map,
    List.getElem?_eq_getElem hi, if_true, Option.map_some] at hat
  rw [hsingle, batchLetterbox_of_getLast hlast] at hat
  exact sameFit_iff.mpr (letterbox_determined (Option.some.inj hat))

/-- **Agreement, exactly**: a batch agrees with the single images if and only if every image fits
the input square as the last one does. -/
theorem batchAgrees_iff (cv : OpenCv) (srt : DetectionSorter) (a : YoloAdapter)
    (images : List Image) :
    BatchAgrees cv srt a images ↔
      ∀ last ∈ images.getLast?, ∀ image ∈ images, SameFit a image last := by
  constructor
  · intro hagree last hlast image himage
    exact hagree.sameFit hlast himage
  · rintro hfit engine rfl hload hbatch hmax hrows confidence nms
    by_cases hne : images = []
    · subst hne
      rfl
    · refine InferenceEngine.inferBatch_eq_of_letterbox engine confidence nms hne hload
        ⟨hbatch, hmax⟩ (hrows _ _ (by simpa using hne)) fun image himage => ?_
      have hlast := List.getLast?_eq_some_getLast hne
      rw [batchLetterbox_of_getLast hlast]
      exact sameFit_iff.mp (hfit _ hlast image himage)

/-! ### Two sizes in one batch -/

/-- The engine of an adapter with an input of 4 by 4, whose backend finds a box in the centre of
every picture. -/
def centreEngine : InferenceEngine where
  adapter := ⟨.v8, 4, by decide⟩
  backend := constBackend (oneBox ⟨.v8, 4, by decide⟩ Nat.one_pos 2 2 (4 / 3) (4 / 3)) 2

/-- **A mixed batch disagrees**: the box in the centre of a picture of 2 by 2 is mapped back with
the scale of the picture of 4 by 4 after it, to the corner. -/
theorem not_batchAgrees :
    ¬ BatchAgrees ⟨fun _ _ _ _ _ _ => 0⟩ byConfidence centreEngine.adapter
      [blackSquare 2 (by decide), blackSquare 4 (by decide)] := by
  intro hagree
  have hboth := hagree centreEngine rfl rfl rfl (by decide) (constBackend_rowByRow _ _) (1 / 2)
    engineNmsThreshold
  exact absurd hboth (by decide +kernel)

end LoongNvr.AiEngine
