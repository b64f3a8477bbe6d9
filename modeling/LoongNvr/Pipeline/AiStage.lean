import LoongNvr.AiEngine.ModelCascade

/-!
# Pipeline — AiStage

The analysis stage.  With a cascade it analyses every frame before passing it on; with an engine
alone it hands a frame to its inference worker when the worker is idle, and gives every frame the
worker's last result.

The worker reads the frame's pixels while later stages may draw on them, so what it sees is an
input.  The statistics are left out.

* `processFrame_frame`: the stage changes nothing of a frame but its analysis.
* `processFrame_events`, `inferWorker_events`: its events name the channel of the frame analysed.
-/

namespace LoongNvr.Pipeline
open LoongNvr.Core LoongNvr.AiEngine

/-- A secondary result as the `ai.detection` event has it: of its detections only the last. -/
structure SecondarySummary where
  modelName : String
  parentIndex : ℤ
  last : Option (String × ℚ)
  deriving DecidableEq, Repr

/-- The `ai.detection` event. -/
structure DetectionEvent where
  channelId : ℤ
  detectionCount : ℕ
  eventType : String
  maxConfidence : ℚ
  secondaryResults : List SecondarySummary := []
  deriving DecidableEq, Repr

/-- The greatest confidence above 0 and the class it belongs to. -/
def topClass (detections : List Detection) : ℚ × String :=
  detections.foldl (fun top d => if d.confidence > top.1 then (d.confidence, d.className) else top)
    (0, "")

/-- A secondary result in the event. -/
def SecondarySummary.of (sr : SecondaryResult) : SecondarySummary where
  modelName := sr.modelName
  parentIndex := sr.parentIndex
  last := sr.detections.getLast?.map fun d => (d.className, d.confidence)

/-- The event for the detections of a frame. -/
def DetectionEvent.of (frame : Frame) (result : AnalysisResult) : DetectionEvent :=
  let (maxConf, top) := topClass result.detections
  { channelId := frame.channelId
    detectionCount := result.detections.length
    eventType := if top.isEmpty then "object_detected" else top
    maxConfidence := maxConf
    secondaryResults := result.secondaryResults.map .of }

/-- The stage's state; an empty cascade is none. -/
structure AiStage where
  engine : Option Detector := none
  cascade : List StepEntry := []
  confidenceThreshold : ℚ := 1 / 2
  skipFrames : ℤ := 0
  frameCounter : ℤ := 0
  lastResult : AnalysisResult := {}
  pendingFrame : Option Frame := none
  inferRunning : Bool := false

namespace AiStage

/-- What the cascade finds; what it does with a null picture is up to its models. -/
def cascadeResult (a : AiStage) (frame : Frame) : Option AnalysisResult :=
  frame.data.bind fun image => runCascade a.cascade image {}

/-- `InferCascade`: the frame passed on, and the events published. -/
def inferCascade (a : AiStage) (frame : Frame) : Frame × List DetectionEvent :=
  match a.cascadeResult frame with
  | none => (frame, [])
  | some result =>
      ({ frame with analysis := result },
        if result.detections.isEmpty then [] else [.of frame result])

/-- Is it this frame's turn to be submitted? -/
def submits (a : AiStage) : Bool :=
  (decide (a.skipFrames ≤ 0) || decide ((a.frameCounter + 1).tmod (a.skipFrames + 1) = 0)) &&
    !a.inferRunning

/-- The frame with the worker's last result. -/
def withLastResult (a : AiStage) (frame : Frame) : Frame :=
  if a.lastResult.hasResult then { frame with analysis := a.lastResult } else frame

/-- The frame goes to the worker when it is the frame's turn and the worker idle. -/
def submitAsync (a : AiStage) (frame : Frame) : AiStage :=
  let counted := { a with frameCounter := a.frameCounter + 1 }
  if a.submits then { counted with pendingFrame := some frame, inferRunning := true } else counted

/-- `ProcessFrame`: the stage, the frame passed on, and the events published. -/
def processFrame (a : AiStage) (frame : Frame) : AiStage × Frame × List DetectionEvent :=
  match frame.type with
  | .raw =>
      if a.engine.isNone && a.cascade.isEmpty then (a, frame, [])
      else if !a.cascade.isEmpty then (a, a.inferCascade frame)
      else (a.submitAsync (a.withLastResult frame), a.withLastResult frame, [])
  | .encoded => (a, frame, [])

/-- What `Infer` finds.  Where the picture has been drawn on meanwhile, `drawn` is what it sees;
what it does with a null picture is up to the engine. -/
def inferResult (a : AiStage) (engine : Detector) (frame : Frame) (drawn : Option Image) :
    Option (List Detection) :=
  frame.data.bind fun image => engine.infer (drawn.getD image) a.confidenceThreshold

/-- One turn of `InferWorker` on the pending frame. -/
def inferWorker (a : AiStage) (drawn : Option Image) : AiStage × List DetectionEvent :=
  match a.pendingFrame with
  | none => (a, [])
  | some frame =>
      match a.engine with
      | some engine =>
          let idle := { a with pendingFrame := none, inferRunning := false }
          match a.inferResult engine frame drawn with
          | none | some [] => (idle, [])
          | some (d :: dets) =>
              let result : AnalysisResult := { hasResult := true, detections := d :: dets }
              ({ idle with lastResult := result }, [.of frame result])
      | none => ({ a with pendingFrame := none }, []) -- the frame is dropped

/-! ### What the stage does with a frame -/

variable (a : AiStage) (frame : Frame)

theorem inferCascade_frame :
    ∃ analysis, (a.inferCascade frame).1 = { frame with analysis := analysis } := by
  simp only [inferCascade]
  split
  · exact ⟨frame.analysis, rfl⟩
  · exact ⟨_, rfl⟩

theorem withLastResult_frame :
    ∃ analysis, a.withLastResult frame = { frame with analysis := analysis } := by
  simp only [withLastResult]
  split
  · exact ⟨_, rfl⟩
  · exact ⟨frame.analysis, rfl⟩

/-- **The frame passed on** is the frame, but for its analysis. -/
theorem processFrame_frame :
    ∃ analysis, (a.processFrame frame).2.1 = { frame with analysis := analysis } := by
  simp only [processFrame]
  split
  · split
    · exact ⟨frame.analysis, rfl⟩
    · split
      · exact inferCascade_frame a frame
      · exact withLastResult_frame a frame
  · exact ⟨frame.analysis, rfl⟩

/-- The frame left for the worker is the one before, or this one. -/
theorem processFrame_pendingFrame {pending : Frame}
    (h : pending ∈ (a.processFrame frame).1.pendingFrame) :
    pending ∈ a.pendingFrame ∨ ∃ analysis, pending = { frame with analysis := analysis } := by
  unfold processFrame at h
  split at h
  · split at h
    · exact .inl h
    · split at h
      · exact .inl h
      · dsimp only [submitAsync] at h
        split at h
        · rw [← Option.mem_some.mp h]
          exact .inr (withLastResult_frame a frame)
        · exact .inl h
  · exact .inl h

theorem processFrame_events :
    ∀ event ∈ (a.processFrame frame).2.2, event.channelId = frame.channelId := by
  intro event hevent
  unfold processFrame at hevent
  split at hevent
  · split at hevent
    · cases hevent
    · split at hevent
      · unfold inferCascade at hevent
        split at hevent
        · cases hevent
        · split at hevent
          · cases hevent
          · rw [List.mem_singleton.mp hevent]
            rfl
      · cases hevent
  · cases hevent

theorem inferWorker_pendingFrame (drawn : Option Image) {pending : Frame}
    (h : pending ∈ (a.inferWorker drawn).1.pendingFrame) : pending ∈ a.pendingFrame := by
  unfold inferWorker at h
  split at h
  · exact h
  · split at h
    · split at h <;> cases h
    · cases h

/-- The worker's event names the channel of the pending frame. -/
theorem inferWorker_events (drawn : Option Image) {event : DetectionEvent}
    (h : event ∈ (a.inferWorker drawn).2) :
    ∃ pending ∈ a.pendingFrame, event.channelId = pending.channelId := by
  unfold inferWorker at h
  split at h
  · cases h
  · next pending hpending =>
      split at h
      · split at h
        · cases h
        · cases h
        · rw [List.mem_singleton.mp h]
          exact ⟨pending, hpending, rfl⟩
      · cases h

end AiStage

end LoongNvr.Pipeline
