import LoongNvr.AiEngine.InferenceEngine
import LoongNvr.Support.Keyed

/-!
# AI engine — ModelManager

The registry of models, and the inference engines created from it.

Creating the backend and loading the model file are parameters; the adapter follows from the
model's family alone (`adapterClass`).

* `ModelManager`: the registered models, with one entry for each name.
* `createEngine_yolo`: where a YOLO engine comes from.
-/

namespace LoongNvr.AiEngine
open Support

/-! ### The registry -/

/-- Metadata describing a registered model. -/
structure ModelInfo where
  name : String
  family : String
  modelPath : String
  backend : String
  inputShape : List ℤ
  classNames : List String
  loaded : Bool := false
  deriving DecidableEq, Repr

/-- The registered models. -/
structure ModelManager where
  models : List ModelInfo
  nodup : (models.map (·.name)).Nodup

namespace ModelManager

/-- No models. -/
def empty : ModelManager := ⟨[], List.nodup_nil⟩

/-- `ModelManager::GetModelInfo` -/
def getModelInfo (m : ModelManager) (modelName : String) : Option ModelInfo :=
  m.models.find? fun info => info.name = modelName

/-- `ModelManager::HasModel` -/
def hasModel (m : ModelManager) (modelName : String) : Bool := (m.getModelInfo modelName).isSome

theorem getModelInfo_of_mem {m : ModelManager} {info : ModelInfo} (h : info ∈ m.models) :
    m.getModelInfo info.name = some info :=
  (find?_key_eq_some_iff m.nodup).mpr ⟨h, rfl⟩

/-- `ModelManager::RegisterModel` -/
def registerModel (m : ModelManager) (info : ModelInfo) : ModelManager × Bool :=
  if h : info.name ∈ m.models.map (·.name) then (m, false)
  else
    (⟨m.models ++ [info], by
      rw [List.map_append]
      exact m.nodup.append (List.nodup_singleton _) (by simpa using h)⟩, true)

/-- `ModelManager::UnregisterModel` -/
def unregisterModel (m : ModelManager) (modelName : String) : ModelManager × Bool :=
  if m.hasModel modelName then
    (⟨m.models.filter fun info => info.name ≠ modelName,
      m.nodup.sublist (List.filter_sublist.map _)⟩, true)
  else (m, false)

/-- The model gets its mark that a backend has loaded it. -/
def markLoaded (m : ModelManager) (modelName : String) : ModelManager where
  models := m.models.map fun info =>
    if info.name = modelName then { info with loaded := true } else info
  nodup := by
    have hnames : (m.models.map fun info =>
        if info.name = modelName then { info with loaded := true } else info).map (·.name) =
          m.models.map (·.name) := by
      rw [List.map_map]
      refine List.map_congr_left fun info _ => ?_
      dsimp only [Function.comp]
      split <;> rfl
    rw [hnames]
    exact m.nodup

end ModelManager

/-! ### Adapters and engines -/

/-- The adapter classes. -/
inductive AdapterClass
  | yolo (version : YoloVersion)
  | lprDetector
  | lprOcr
  | faceDetector
  | faceAttribute
  deriving DecidableEq, Repr

/-- `YoloAdapterFactory::Create`: an unknown family gets the v8 adapter. -/
def adapterClass (family : String) : AdapterClass :=
  if family = "yolov5" ∨ family = "yolov5s" ∨ family = "yolov5n" then .yolo .v5
  else if family = "yolov7" then .yolo .v5
  else if family = "yolov8" ∨ family = "yolov8n" ∨ family = "yolov8s" ∨ family = "yolov9" ∨
      family = "yolov10" ∨ family = "yolov11" then .yolo .v8
  else if family = "lpr_detector" ∨ family = "lpr_det" then .lprDetector
  else if family = "lpr_ocr" ∨ family = "plate_ocr" ∨ family = "crnn" then .lprOcr
  else if family = "face_detector" ∨ family = "scrfd" ∨ family = "retinaface" then .faceDetector
  else if family = "face_attribute" ∨ family = "arcface" ∨ family = "insightface" then .faceAttribute
  else .yolo .v8

/-- A backend that has loaded a model, and `GetInputShape`. -/
structure LoadedBackend where
  backend : InferenceBackend
  inputShape : List ℤ

/-- `BackendFactory::Create` and `LoadModel`: from the name of the backend and the path of the
model, or nothing where loading fails. -/
abbrev BackendLoader := (backendName modelPath : String) → Option LoadedBackend

/-- The side of the input square: the model's height where its shape is known, else 640. -/
def detectInputSize (shape : List ℤ) : ℕ :=
  match shape with
  | _ :: _ :: height :: width :: _ => if height > 0 ∧ width > 0 then height.toNat else 640
  | _ => 640

theorem detectInputSize_pos (shape : List ℤ) : 0 < detectInputSize shape := by
  simp only [detectInputSize]
  split
  · split
    · rename_i hpos
      exact Int.lt_toNat.mpr hpos.1
    · exact Nat.succ_pos _
  · exact Nat.succ_pos _

/-- What `CreateEngine` makes: an engine over a YOLO adapter, or over a plate or face adapter, whose
code is not modelled. -/
inductive Engine
  | yolo (engine : InferenceEngine)
  | other (adapter : AdapterClass) (loaded : LoadedBackend)

/-- The YOLO engine over a loaded backend. -/
def engineOf (version : YoloVersion) (loaded : LoadedBackend) : InferenceEngine where
  backend := loaded.backend
  adapter := ⟨version, detectInputSize loaded.inputShape, detectInputSize_pos _⟩

namespace ModelManager

/-- `ModelManager::CreateEngine` with a backend name; an empty one stands for the model's own. -/
def createEngine (m : ModelManager) (load : BackendLoader) (modelName backendName : String) :
    ModelManager × Option Engine :=
  match m.getModelInfo modelName with
  | none => (m, none)
  | some info =>
      let effectiveBackend := if backendName.isEmpty then info.backend else backendName
      match load effectiveBackend info.modelPath with
      | none => (m, none)
      | some loaded =>
          match adapterClass info.family with
          | .yolo version => (m.markLoaded modelName, some (.yolo (engineOf version loaded)))
          | adapter => (m.markLoaded modelName, some (.other adapter loaded))

/-- **A YOLO engine** of a registered model is over a loaded backend and the family's adapter. -/
theorem createEngine_yolo {m : ModelManager} {load : BackendLoader} {info : ModelInfo}
    {backendName : String} {engine : InferenceEngine} (hmem : info ∈ m.models)
    (h : (m.createEngine load info.name backendName).2 = some (.yolo engine)) :
    ∃ version loaded, adapterClass info.family = .yolo version ∧
      load (if backendName.isEmpty then info.backend else backendName) info.modelPath =
        some loaded ∧ engine = engineOf version loaded := by
  rw [createEngine, getModelInfo_of_mem hmem] at h
  dsimp only at h
  cases hload : load (if backendName.isEmpty then info.backend else backendName) info.modelPath with
  | none =>
      rw [hload] at h
      cases h
  | some loaded =>
      rw [hload] at h
      cases hclass : adapterClass info.family <;> rw [hclass] at h <;> cases h
      exact ⟨_, loaded, rfl, rfl, rfl⟩

end ModelManager

end LoongNvr.AiEngine
