import LoongNvr.AiEngine.ModelManager
import LoongNvr.AiEngine.ModelCascade
import LoongNvr.Rules.Evaluators

/-!
# AI engine — Class filters

What a list of class names selects among the detections of an engine: the target classes of a
rule, and the trigger classes of a cascade's crop step.

Both compare names with a detection's class name, which no YOLO adapter sets, while the names of
the model stay in the registry.  A filter therefore selects the classes it names exactly when it
treats all class names as it treats the empty one (`filtersSelect_iff`): when it names none of
them, or all of them and the empty name too.
-/

namespace LoongNvr.AiEngine
open LoongNvr.Core LoongNvr.Rules Support YoloAdapter

/-! ### Names of classes -/

/-- The name of a class. -/
def className? (classNames : List String) (classId : ℤ) : Option String :=
  if 0 ≤ classId then classNames[classId.toNat]? else none

/-- Is the class's name among the wanted ones? -/
def wanted (classNames target : List String) (classId : ℤ) : Bool :=
  (className? classNames classId).any fun name => target.contains name

theorem className?_natCast (classNames : List String) (c : ℕ) :
    className? classNames c = classNames[c]? := by
  rw [className?, if_pos (Int.natCast_nonneg c), Int.toNat_natCast]

/-- A class index of the model has a name. -/
theorem className?_of_inClasses {classNames : List String} {classId : ℤ} (hne : classNames ≠ [])
    (h : InClasses classNames.length classId) :
    ∃ name ∈ classNames, className? classNames classId = some name := by
  have hlen : 0 < classNames.length := List.length_pos_iff.mpr hne
  obtain ⟨c, rfl, hc⟩ : ∃ c : ℕ, classId = c ∧ c < classNames.length := by
    rcases h with rfl | ⟨hnonneg, hlt⟩
    · exact ⟨0, rfl, hlen⟩
    · exact ⟨classId.toNat, (Int.toNat_of_nonneg hnonneg).symm, by omega⟩
  refine ⟨classNames[c], List.getElem_mem hc, ?_⟩
  rw [className?_natCast, List.getElem?_eq_getElem hc]

/-! ### What an engine detects -/

/-- The backend's outputs have scores for this many classes. -/
def InferenceEngine.OutputsClasses (engine : InferenceEngine) (k : ℕ) : Prop :=
  ∀ input output, engine.backend.runInference input = some output →
    ∀ batch dim1 dim2 rest, output.shape = batch :: dim1 :: dim2 :: rest →
      engine.adapter.numClasses dim1 dim2 = k

/-- **A detection of an engine** has no class name, and a class index of the model. -/
theorem mem_infer {cv : OpenCv} {srt : DetectionSorter} {engine : InferenceEngine} {k : ℕ}
    (hclasses : engine.OutputsClasses k) {image : Image} {confidence : ℚ}
    {detections : List Detection}
    (h : (engine.infer cv srt image confidence).2 = some detections) :
    ∀ det ∈ detections, det.className = "" ∧ InClasses k det.classId := by
  intro det hdet
  rw [InferenceEngine.infer, InferenceEngine.inferWith] at h
  split at h
  · cases h
  · rw [InferenceEngine.runSingle_eq] at h
    obtain ⟨output, houtput, hpost⟩ := Option.bind_eq_some_iff.mp h
    unfold postProcess at hpost
    split at hpost
    case h_1 batch dim1 dim2 rest hshape =>
      cases hpost
      -- suppression keeps some of the candidates, and these get no name
      have hcand := mem_candidates (mem_applyNms srt engine.adapter engineNmsThreshold hdet)
      rw [hclasses _ _ houtput batch dim1 dim2 rest hshape] at hcand
      exact hcand
    case h_2 => cases hpost

/-! ### Filters -/

/-- **Class filters select the class**: over every engine of the model, whatever its backend
answers, a rule with these target classes keeps exactly the detections that are confident enough
and of a class with one of these names, and a crop step with these triggers crops exactly the
detections of such a class. -/
def FiltersSelect (info : ModelInfo) (target : List String) : Prop :=
  ∀ (cv : OpenCv) (srt : DetectionSorter) (m : ModelManager) (load : BackendLoader)
    (backendName : String) (engine : InferenceEngine), info ∈ m.models →
    (m.createEngine load info.name backendName).2 = some (.yolo engine) →
    engine.OutputsClasses info.classNames.length →
    ∀ (image : Image) (confidence : ℚ) (detections : List Detection),
      (engine.infer cv srt image confidence).2 = some detections →
      (∀ rule : AnalysisRule, rule.enabled = true → rule.targetClasses = target →
        filterDetections rule detections = detections.filter fun det =>
          decide (rule.minConfidence ≤ det.confidence) &&
            wanted info.classNames target det.classId) ∧
      ∀ (entry : StepEntry) (result : AnalysisResult), entry.config.mode = .crop →
        entry.config.triggerClasses = target →
          runCrop entry image detections result =
            runCropWhere (fun det => wanted info.classNames target det.classId) entry image
              detections result

/-- The filter treats every class name as it treats the empty one. -/
def TreatsAllAsUnnamed (classNames target : List String) : Prop :=
  ∀ name ∈ classNames, (name ∈ target ↔ "" ∈ target)

instance (classNames target : List String) : Decidable (TreatsAllAsUnnamed classNames target) :=
  inferInstanceAs (Decidable (∀ name ∈ classNames, (name ∈ target ↔ "" ∈ target)))

/-- Such a filter says of a detection without a class name what it says of its class. -/
theorem contains_eq_wanted {classNames target : List String} (hne : classNames ≠ [])
    (h : TreatsAllAsUnnamed classNames target) {det : Detection} (hname : det.className = "")
    (hclass : InClasses classNames.length det.classId) :
    target.contains det.className = wanted classNames target det.classId := by
  obtain ⟨name, hmem, hname?⟩ := className?_of_inClasses hne hclass
  rw [wanted, hname?, hname, Option.any_some, Bool.eq_iff_iff, List.contains_iff_mem,
    List.contains_iff_mem]
  exact (h name hmem).symm

/-- **Where it does**, filters select the class. -/
theorem FiltersSelect.of_treatsAllAsUnnamed {info : ModelInfo} {target : List String}
    (hnames : info.classNames ≠ []) (htarget : target ≠ [])
    (h : TreatsAllAsUnnamed info.classNames target) : FiltersSelect info target := by
  intro cv srt m load backendName engine _ _ hclasses image confidence detections hinfer
  have hempty : target.isEmpty = false := by simpa using htarget
  have hsame : ∀ det ∈ detections,
      target.contains det.className = wanted info.classNames target det.classId :=
    fun det hdet =>
      have hfound := mem_infer hclasses hinfer det hdet
      contains_eq_wanted hnames h hfound.1 hfound.2
  constructor
  · rintro rule - rfl
    refine List.filter_congr fun det hdet => ?_
    rw [hempty, Bool.false_or, hsame det hdet]
    by_cases hconf : det.confidence < rule.minConfidence
    · simp [hconf]
    · simp [hconf, not_lt.mp hconf]
  · rintro entry result - rfl
    have htrigger : ∀ det ∈ detections, triggered entry.config det =
        wanted info.classNames entry.config.triggerClasses det.classId := by
      intro det hdet
      rw [triggered, hempty, Bool.false_or, hsame det hdet]
    exact runCropWhere_congr htrigger

/-! ### The exact condition -/

/-- A loader that loads one backend for everything. -/
def loadAlways (backend : InferenceBackend) : BackendLoader := fun _ _ => some ⟨backend, []⟩

/-- A manager with one model. -/
def onlyModel (info : ModelInfo) : ModelManager := ⟨[info], List.nodup_singleton _⟩

theorem createEngine_onlyModel {info : ModelInfo} {version : YoloVersion}
    (h : adapterClass info.family = .yolo version) (backend : InferenceBackend) :
    ((onlyModel info).createEngine (loadAlways backend) info.name "").2 =
      some (.yolo (engineOf version ⟨backend, []⟩)) := by
  have hfind : (onlyModel info).getModelInfo info.name = some info :=
    ModelManager.getModelInfo_of_mem List.mem_cons_self
  rw [ModelManager.createEngine, hfind]
  simp only [loadAlways, h]

/-- The engine over a backend that finds the same object of class `c` in every picture. -/
def oneObjectEngine (version : YoloVersion) {k c : ℕ} (hc : c < k) : InferenceEngine :=
  engineOf version
    ⟨constBackend (oneBox ⟨version, detectInputSize [], detectInputSize_pos _⟩ hc 0 0 0 0) 1, []⟩

theorem oneObjectEngine_outputsClasses (version : YoloVersion) {k c : ℕ} (hc : c < k) :
    (oneObjectEngine version hc).OutputsClasses k := by
  rintro input output hrun batch dim1 dim2 rest hshape
  dsimp only [oneObjectEngine, engineOf, constBackend] at hrun
  split at hrun
  · cases hrun
  · cases hrun
    injection hshape with _ hshape
    cases version with
    | v5 =>
        cases hshape
        exact Nat.add_sub_cancel_left 5 k
    | v8 =>
        cases hshape
        exact Nat.add_sub_cancel_left 4 k

theorem oneObjectEngine_infer (cv : OpenCv) (srt : DetectionSorter) (version : YoloVersion)
    {k c : ℕ} (hc : c < k) (image : Image) :
    ∃ det, ((oneObjectEngine version hc).infer cv srt image 1).2 = some [det] ∧
      det.className = "" ∧ det.classId = c ∧ det.confidence = 1 := by
  refine ⟨boxDetection _ _ _ 0 0 0 0 1 c,
    (InferenceEngine.infer_of_output _ _ _ _ rfl (constBackend_row _ _ _)).trans
      (postProcess_oneBox srt _ _ hc 0 0 0 0 _ _ le_rfl _), rfl, rfl, rfl⟩

theorem eq_of_filter_singleton {α : Type*} {p q : α → Bool} {x : α}
    (h : [x].filter p = [x].filter q) : p x = q x := by
  rw [Bool.eq_iff_iff]
  have hmem : x ∈ [x].filter p ↔ x ∈ [x].filter q := by rw [h]
  simpa only [List.mem_filter, List.mem_singleton, true_and] using hmem

/-- **A filter that selects** treats every class name as the empty one: the model may detect a
single object, of any of its classes. -/
theorem FiltersSelect.treatsAllAsUnnamed {info : ModelInfo} {target : List String}
    {version : YoloVersion} (hfamily : adapterClass info.family = .yolo version)
    (htarget : target ≠ []) (h : FiltersSelect info target) :
    TreatsAllAsUnnamed info.classNames target := by
  intro name hname
  obtain ⟨c, hc, rfl⟩ := List.getElem_of_mem hname
  have hempty : target.isEmpty = false := by simpa using htarget
  obtain ⟨det, hinfer, hunnamed, hclass, hconf⟩ := oneObjectEngine_infer ⟨fun _ _ _ _ _ _ => 0⟩
    byConfidence version hc (blackSquare 1 Nat.one_pos)
  -- a rule with this filter keeps the object exactly if its class is wanted
  have hrule := (h _ _ (onlyModel info) _ "" _ List.mem_cons_self (createEngine_onlyModel hfamily _)
    (oneObjectEngine_outputsClasses version hc) _ _ _ hinfer).1
    { targetClasses := target, minConfidence := 0 } rfl rfl
  have hwanted : wanted info.classNames target c = target.contains info.classNames[c] := by
    rw [wanted, className?_natCast, List.getElem?_eq_getElem hc, Option.any_some]
  have hkept := eq_of_filter_singleton hrule
  rw [hunnamed, hclass, hconf, hempty, hwanted] at hkept
  have hsure : ¬ (1 : ℚ) < 0 := not_lt.mpr zero_le_one
  rw [← List.contains_iff_mem, ← List.contains_iff_mem]
  simpa [hsure] using hkept.symm

/-- **Class filters, exactly**: a non-empty filter over a YOLO model selects the classes it names
if and only if it treats every class name of the model as the empty one. -/
theorem filtersSelect_iff {info : ModelInfo} {target : List String} {version : YoloVersion}
    (hfamily : adapterClass info.family = .yolo version) (hnames : info.classNames ≠ [])
    (htarget : target ≠ []) :
    FiltersSelect info target ↔ TreatsAllAsUnnamed info.classNames target := by
  constructor
  · intro h
    exact h.treatsAllAsUnnamed hfamily htarget
  · intro h
    exact .of_treatsAllAsUnnamed hnames htarget h

/-- A model of two classes. -/
def peopleAndCars : ModelInfo where
  name := "yolov8n"
  family := "yolov8"
  modelPath := "yolov8n.onnx"
  backend := "onnxruntime"
  inputShape := [1, 3, 640, 640]
  classNames := ["person", "car"]

/-- A filter for a class the model does not know selects nothing, as it should. -/
theorem filtersSelect_unknown : FiltersSelect peopleAndCars ["dog"] :=
  (filtersSelect_iff rfl (by decide) (by decide)).mpr (by decide)

/-- **A filter for persons loses them**: the backend finds one object of class 0, and no rule with
target class "person" keeps it. -/
theorem not_filtersSelect : ¬ FiltersSelect peopleAndCars ["person"] := by
  intro h
  have hinfer : ((oneObjectEngine .v8 Nat.two_pos).infer ⟨fun _ _ _ _ _ _ => 0⟩ byConfidence
      (blackSquare 1 Nat.one_pos) (1 / 2)).2 =
      some [{ x1 := 0, y1 := 0, x2 := 0, y2 := 0, confidence := 1, classId := 0, className := "" }] :=
    by decide +kernel
  have hrule := (h _ _ (onlyModel peopleAndCars) _ "" _ List.mem_cons_self
    (createEngine_onlyModel rfl _) (oneObjectEngine_outputsClasses .v8 Nat.two_pos) _ _ _ hinfer).1
    { targetClasses := ["person"] } rfl rfl
  exact absurd hrule (by decide +kernel)

end LoongNvr.AiEngine
