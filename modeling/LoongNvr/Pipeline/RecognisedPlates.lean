import LoongNvr.AiEngine.LprOcrAdapter
import LoongNvr.Pipeline.AiStage
import LoongNvr.Rules.RuleStore

/-!
# Pipeline — the plates and faces of the `ai.detection` event

`InferCascade` publishes what a cascade found as a JSON text, and a handler installed at startup
makes records of plates and faces from it.  A secondary result is an object of its model's name,
the index it belongs to, and the class name and confidence of its detections, each detection over
the one before.  The handler looks for a plate's number under `plate_text`, which nobody writes.

The text stands for its value, so that writing and reading it is not modelled.  The attributes of a
secondary result are left out: only `RunCrop` makes one, and it gives none.  Statements succeed,
and the clock is an argument (`now`, in milliseconds).

* `onDetection_plates`: the handler records no plate of a published event.
* `recordsPlates_iff`: every recognised plate is recorded where none was recognised, and only
  there.
-/

namespace LoongNvr.Pipeline
open LoongNvr.Core LoongNvr.AiEngine LoongNvr.Rules Support

/-- A row of `plates`, its id apart. -/
structure PlateRecord where
  plateNumber : String
  plateColor : String
  confidence : ℚ
  channelId : ℤ
  timestamp : ℤ
  snapshotPath : String := ""
  deriving DecidableEq, Repr

/-- A row of `faces`, its id and its embedding apart. -/
structure FaceRecord where
  channelId : ℤ
  timestamp : ℤ
  confidence : ℚ
  age : ℤ
  gender : String
  snapshotPath : String := ""
  deriving DecidableEq, Repr

/-- The stores the handler writes to. -/
structure RecognitionStores where
  plates : Table PlateRecord := .empty
  faces : Table FaceRecord := .empty

namespace RecognitionStores

/-- `PlateStore::Insert` -/
def insertPlate (plate : PlateRecord) (stores : RecognitionStores) : RecognitionStores :=
  let row : PlateRecord := { plate with
    plateNumber := cStr plate.plateNumber
    plateColor := cStr plate.plateColor
    snapshotPath := cStr plate.snapshotPath }
  { stores with plates := stores.plates.insert row }

/-- `FaceStore::Insert` -/
def insertFace (face : FaceRecord) (stores : RecognitionStores) : RecognitionStores :=
  let row : FaceRecord := { face with
    gender := cStr face.gender
    snapshotPath := cStr face.snapshotPath }
  { stores with faces := stores.faces.insert row }

end RecognitionStores

/-! ### The event -/

/-- The object of a secondary result. -/
def SecondarySummary.json (sr : SecondarySummary) : Json :=
  .obj ([("model_name", .str sr.modelName), ("parent_index", intJson sr.parentIndex)] ++
    match sr.last with
    | some (className, confidence) =>
        [("class_name", .str className), ("confidence", .num confidence)]
    | none => [])

/-- What is published under `ai.detection`. -/
def DetectionEvent.json (event : DetectionEvent) : Json :=
  .obj ([
    ("channel_id", intJson event.channelId),
    ("detection_count", intJson event.detectionCount),
    ("event_type", .str event.eventType),
    ("max_confidence", .num event.maxConfidence)] ++
    if event.secondaryResults.isEmpty then []
    else [("secondary_results", .arr (event.secondaryResults.map SecondarySummary.json))])

/-- The events `InferCascade` publishes for a cascade result. -/
def cascadeEvents (frame : Frame) (result : AnalysisResult) : List DetectionEvent :=
  if result.detections.isEmpty then [] else [.of frame result]

theorem AiStage.inferCascade_events (a : AiStage) (frame : Frame) :
    (a.inferCascade frame).2 = ((a.cascadeResult frame).map (cascadeEvents frame)).getD [] := by
  simp only [AiStage.inferCascade]
  split <;> next h => rw [h]; rfl

/-! ### The handler -/

/-- The models whose results are plates. -/
def plateModels : List String := ["lpr_ocr", "plate_ocr", "crnn"]

/-- The models whose results are faces. -/
def faceModels : List String := ["face_attribute", "arcface", "insightface"]

/-- The plate read from a secondary result. -/
def plateOf (now channelId : ℤ) (sr : Json) : Option PlateRecord := do
  return {
    plateNumber := ← sr.value Json.getStr "plate_text" ""
    plateColor := ← sr.value Json.getStr "class_name" ""
    confidence := ← sr.value Json.getFloat "confidence" 0
    channelId := channelId
    timestamp := now }

/-- The face read from a secondary result. -/
def faceOf (now channelId : ℤ) (sr : Json) : Option FaceRecord := do
  return {
    channelId := channelId
    gender := ← sr.value Json.getStr "gender" ""
    age := ← sr.value Json.getInt "age" 0
    confidence := ← sr.value Json.getFloat "confidence" 0
    timestamp := now }

/-- The block for the results of a plate model. -/
def recordPlate (now channelId : ℤ) (sr : Json) (model : String) :
    Assignments RecognitionStores Unit :=
  if model ∈ plateModels then
    assign (plateOf now channelId sr) fun plate stores =>
      if plate.plateNumber.isEmpty then stores else stores.insertPlate plate
  else pure ()

/-- The block for the results of a face model. -/
def recordFace (now channelId : ℤ) (sr : Json) (model : String) :
    Assignments RecognitionStores Unit :=
  if model ∈ faceModels then assign (faceOf now channelId sr) RecognitionStores.insertFace
  else pure ()

/-- The body of the loop over the secondary results. -/
def recordSecondary (now channelId : ℤ) (sr : Json) : Assignments RecognitionStores Unit :=
  match sr.value Json.getStr "model_name" "" with
  | none => failure
  | some model => do
      recordPlate now channelId sr model
      recordFace now channelId sr model

/-- The loop over the secondary results. -/
def recordSecondaries (now channelId : ℤ) : List Json → Assignments RecognitionStores Unit
  | [] => pure ()
  | sr :: srs => do
      recordSecondary now channelId sr
      recordSecondaries now channelId srs

/-- The `ai.detection` handler; what was stored before an exception stays. -/
def onDetection (now : ℤ) (event : Json) : Assignments RecognitionStores Unit :=
  match event.member "secondary_results" with
  | none => pure ()
  | some results =>
      match event.value Json.getInt "channel_id" (-1) with
      | none => failure
      | some channelId => recordSecondaries now channelId results.items

/-- The stores after the handler has seen some events. -/
def handled (now : ℤ) (events : List DetectionEvent) (stores : RecognitionStores) :
    RecognitionStores :=
  events.foldl (fun stores event => ((onDetection now event.json).run.run stores).2) stores

/-! ### What is recorded of a published event -/

/-- `plate_text` is not among what is written of a secondary result. -/
theorem plateOf_json (now channelId : ℤ) (sr : SecondarySummary) :
    ∃ plate, plateOf now channelId sr.json = some plate ∧ plate.plateNumber = "" := by
  obtain ⟨modelName, parentIndex, last⟩ := sr
  cases last with
  | none => exact ⟨_, rfl, rfl⟩
  | some last => exact ⟨_, rfl, rfl⟩

theorem recordPlate_keeps (now channelId : ℤ) (sr : SecondarySummary) (model : String) :
    Keeps RecognitionStores.plates (recordPlate now channelId sr.json model) := by
  obtain ⟨plate, hplate, hempty⟩ := plateOf_json now channelId sr
  unfold recordPlate
  split
  · refine keeps_assign fun plate' hplate' stores => ?_
    rw [hplate] at hplate'
    rw [← Option.some.inj hplate', hempty]
    rfl
  · exact keeps_pure _

theorem recordFace_keeps (now channelId : ℤ) (sr : Json) (model : String) :
    Keeps RecognitionStores.plates (recordFace now channelId sr model) := by
  unfold recordFace
  split
  · exact keeps_assign fun _ _ _ => rfl
  · exact keeps_pure _

theorem recordSecondary_keeps (now channelId : ℤ) (sr : SecondarySummary) :
    Keeps RecognitionStores.plates (recordSecondary now channelId sr.json) := by
  unfold recordSecondary
  split
  · exact keeps_failure
  · exact .bind (recordPlate_keeps now channelId sr _) fun _ => recordFace_keeps now channelId _ _

theorem recordSecondaries_keeps (now channelId : ℤ) (srs : List SecondarySummary) :
    Keeps RecognitionStores.plates
      (recordSecondaries now channelId (srs.map SecondarySummary.json)) := by
  induction srs with
  | nil => exact keeps_pure _
  | cons sr srs ih => exact .bind (recordSecondary_keeps now channelId sr) fun _ => ih

/-- The secondary results of an event, as the handler finds them. -/
theorem member_secondaryResults (event : DetectionEvent) :
    event.json.member "secondary_results" =
      if event.secondaryResults.isEmpty then none
      else some (.arr (event.secondaryResults.map SecondarySummary.json)) := by
  unfold DetectionEvent.json
  split <;> rfl

/-- **No plate of a published event is recorded.** -/
theorem onDetection_plates (now : ℤ) (event : DetectionEvent) :
    Keeps RecognitionStores.plates (onDetection now event.json) := by
  unfold onDetection
  rw [member_secondaryResults]
  split
  · exact keeps_pure _
  · next results hresults =>
      split at hresults
      · cases hresults
      · rw [← Option.some.inj hresults]
        split
        · exact keeps_failure
        · exact recordSecondaries_keeps now _ event.secondaryResults

theorem handled_plates (now : ℤ) (events : List DetectionEvent) (stores : RecognitionStores) :
    (handled now events stores).plates = stores.plates := by
  induction events generalizing stores with
  | nil => rfl
  | cons event events ih => exact (ih _).trans (onDetection_plates now event stores)

/-! ### Every recognised plate recorded -/

/-- The plates a cascade recognised: the detections of the plate models. -/
def recognisedPlates (result : AnalysisResult) : List Detection :=
  result.secondaryResults.flatMap fun sr => if sr.modelName ∈ plateModels then sr.detections else []

/-- The event for a frame leaves one more record for each recognised plate, under its text and
with its confidence, and no other. -/
def RecordsPlates (now : ℤ) (stores : RecognitionStores) (frame : Frame)
    (result : AnalysisResult) : Prop :=
  ∃ gained : List (ℤ × PlateRecord),
    (handled now (cascadeEvents frame result) stores).plates.rows = stores.plates.rows ++ gained ∧
    (gained.map fun row => (row.2.plateNumber, row.2.confidence, row.2.channelId)).Perm
      ((recognisedPlates result).map fun d => (d.className, d.confidence, frame.channelId))

theorem recordsPlates_iff_nil (now : ℤ) (stores : RecognitionStores) (frame : Frame)
    (result : AnalysisResult) :
    RecordsPlates now stores frame result ↔ recognisedPlates result = [] := by
  simp only [RecordsPlates, handled_plates]
  constructor
  · rintro ⟨gained, hrows, hperm⟩
    rw [List.append_right_eq_self.mp hrows.symm] at hperm
    exact List.map_eq_nil_iff.mp (List.nil_perm.mp hperm)
  · intro hnone
    exact ⟨[], (List.append_nil _).symm, by rw [hnone]; exact .nil⟩

/-- **Every recognised plate is recorded** exactly where the plate models found none. -/
theorem recordsPlates_iff (now : ℤ) (stores : RecognitionStores) (frame : Frame)
    (result : AnalysisResult) :
    RecordsPlates now stores frame result ↔
      ∀ sr ∈ result.secondaryResults, sr.modelName ∈ plateModels → sr.detections = [] := by
  rw [recordsPlates_iff_nil, recognisedPlates, List.flatMap_eq_nil_iff]
  refine forall₂_congr fun sr _ => ?_
  split
  · next h => exact ⟨fun hnil _ => hnil, fun hnil => hnil h⟩
  · next h => exact ⟨fun _ hplate => absurd hplate h, fun _ => rfl⟩

/-- A car whose plate was read: the plate is not recorded. -/
theorem recordsPlates_refuted :
    ¬ RecordsPlates 0 {} { channelId := 3, origin := 0 }
      { detections := [⟨0, 0, 9, 9, 9 / 10, 2, "car"⟩]
        secondaryResults := [{
          parentIndex := 0
          modelName := "lpr_ocr"
          detections := [⟨0, 0, 9, 3, 8 / 10, 0, "A12345"⟩] }] } := by
  rw [recordsPlates_iff_nil]
  decide

end LoongNvr.Pipeline
