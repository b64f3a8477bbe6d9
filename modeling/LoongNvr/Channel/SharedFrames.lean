import LoongNvr.Channel.ChannelManager
import LoongNvr.Rules.RuleStage

/-!
# Channel — SharedFrames

A frame is passed on by reference: `AiStage` leaves one for its inference worker and passes the same
one on to `RuleStage` and `OverlayStage`, which draws into its pixels.  The stages' workers and the
inference worker take their steps in any order; a frame is known by its number.

`AiStage` has an engine and no cascade.  What the drawing functions do to a picture is a parameter.

* `OsdRenderer.render`: what `OverlayStage` does to a picture.
* `SharedFrames.step`: one step of one of the threads.
-/

namespace LoongNvr.Channel
open LoongNvr.Core LoongNvr.AiEngine LoongNvr.Rules Support IouTracker
open LoongNvr.Pipeline (AiStage)

/-! ### Drawing -/

/-- The drawing functions of `OsdRenderer`; `κ` is what it remembers of trajectories. -/
structure OsdDrawing (κ : Type) where
  ruleRegions : OverlayConfig → List RuleRegionOverlay → Image → Image
  ruleLines : OverlayConfig → List RuleLineOverlay → Image → Image
  timestamp : OverlayConfig → ℤ → Image → Image
  channelName : OverlayConfig → ℤ → String → Image → Image
  updateTrajectoryHistory : OverlayConfig → List Detection → κ → κ
  trajectories : OverlayConfig → κ → Image → Image
  detections : OverlayConfig → List Detection → Image → Image
  ruleHighlights : OverlayConfig → List RuleTargetHighlight → Image → Image

/-- The renderer of an `OverlayStage`. -/
structure OsdRenderer (κ : Type) where
  config : OverlayConfig := {}
  channelName : String := ""
  channelId : ℤ := -1
  trajectories : κ

/-- `OsdRenderer::Render` at a time of the wall clock. -/
def OsdRenderer.render {κ : Type} (osd : OsdDrawing κ) (r : OsdRenderer κ) (now : ℤ)
    (info : FrameInfo) (detections : List Detection) (ruleOverlay : RuleOverlayData)
    (image : Image) : OsdRenderer κ × Image :=
  if info.width ≤ 0 ∨ info.height ≤ 0 ∨ !r.config.enabled then (r, image)
  else
    let image := if ruleOverlay.regions.isEmpty then image
      else osd.ruleRegions r.config ruleOverlay.regions image
    let image := if ruleOverlay.lines.isEmpty then image
      else osd.ruleLines r.config ruleOverlay.lines image
    let image := if r.config.showTimestamp then osd.timestamp r.config now image else image
    let image := if r.config.showChannelName then
      osd.channelName r.config r.channelId r.channelName image else image
    let (r, image) :=
      if detections.isEmpty then (r, image)
      else
        let (r, image) :=
          if r.config.showTrajectory then
            let r := { r with
              trajectories := osd.updateTrajectoryHistory r.config detections r.trajectories }
            (r, osd.trajectories r.config r.trajectories image)
          else (r, image)
        (r, osd.detections r.config detections image)
    (r, if ruleOverlay.highlights.isEmpty then image
      else osd.ruleHighlights r.config ruleOverlay.highlights image)

/-- A renderer that is switched off leaves the picture as it is. -/
theorem OsdRenderer.render_disabled {κ : Type} (osd : OsdDrawing κ) {r : OsdRenderer κ}
    (h : r.config.enabled = false) (now : ℤ) (info : FrameInfo) (detections : List Detection)
    (ruleOverlay : RuleOverlayData) (image : Image) :
    r.render osd now info detections ruleOverlay image = (r, image) :=
  if_pos (.inr (.inr (by rw [h]; rfl)))

/-! ### The stages -/

/-- Where the worker of `AiStage` is: before it counts a frame, leaves it to the inference worker,
or passes it on. -/
inductive AiCaller
  | idle
  | counting (n : ℕ)
  | submitting (n : ℕ)
  | passing (n : ℕ)

/-- Where the inference worker is: waiting for a frame, before `Infer` on one it has taken, before
what was found in one is stored, or before it is idle again. -/
inductive InferState
  | waiting
  | taken (n : ℕ)
  | found (outcome : Option (List Detection))
  | resting

/-- The stages, the frames they share, and as history the pictures that the decoder delivered, that
were inferred on and that were drawn, the newest of these first. -/
structure SharedFrames (κ : Type) where
  engine : Detector
  renderer : OsdRenderer κ
  /-- `AiStage`; the frame left for the inference worker is `pending`. -/
  stage : AiStage := {}
  pending : Option ℕ := none
  caller : AiCaller := .idle
  worker : InferState := .waiting
  frames : List Frame := []
  ruleQueue : List ℕ := []
  overlayQueue : List ℕ := []
  decoded : List (Option Image) := []
  inferred : List (ℕ × Image) := []
  rendered : List (ℕ × Image) := []

/-- A step: a frame reaches `AiStage`; its worker counts it, leaves it to the inference worker and
passes it on; the inference worker takes a frame, calls `Infer` on its pixels, stores what was found
and is idle again; `RuleStage` and `OverlayStage` process the frame at the head of their queues; and
a full queue drops a frame. -/
inductive FrameStep
  | deliver (frame : Frame)
  | count
  | submit
  | pass
  | take
  | infer
  | store
  | rest
  | rule (engine : RuleEngine) (now : ℤ)
  | overlay (now : ℤ)
  | dropRule (i : ℕ)
  | dropOverlay (i : ℕ)

namespace SharedFrames

variable {κ : Type} (osd : OsdDrawing κ) (srt : PairSorter) (s : SharedFrames κ)

/-- A frame that is raw and has its pixels is analysed; another is passed on. -/
def deliver (frame : Frame) : SharedFrames κ :=
  match s.caller with
  | .idle =>
      let n := s.frames.length
      let s := { s with decoded := s.decoded ++ [frame.data] }
      if frame.type = .raw ∧ frame.data.isSome then
        { s with frames := s.frames ++ [s.stage.withLastResult frame], caller := .counting n }
      else { s with frames := s.frames ++ [frame], caller := .passing n }
  | _ => s

def count : SharedFrames κ :=
  match s.caller with
  | .counting n =>
      let counted := { s.stage with frameCounter := s.stage.frameCounter + 1 }
      if s.stage.submits then
        { s with stage := { counted with inferRunning := true }, caller := .submitting n }
      else { s with stage := counted, caller := .passing n }
  | _ => s

def submit : SharedFrames κ :=
  match s.caller with
  | .submitting n => { s with pending := some n, caller := .passing n }
  | _ => s

def pass : SharedFrames κ :=
  match s.caller with
  | .passing n => { s with ruleQueue := s.ruleQueue ++ [n], caller := .idle }
  | _ => s

def take : SharedFrames κ :=
  match s.worker, s.pending with
  | .waiting, some n => { s with pending := none, worker := .taken n }
  | _, _ => s

/-- `Infer` reads the pixels that the frame has now. -/
def infer : SharedFrames κ :=
  match s.worker with
  | .taken n =>
      match (s.frames[n]?).bind (·.data) with
      | none => s
      | some image =>
          { s with
            inferred := s.inferred ++ [(n, image)]
            worker := .found (s.engine.infer image s.stage.confidenceThreshold) }
  | _ => s

def store : SharedFrames κ :=
  match s.worker with
  | .found (some (d :: dets)) =>
      { s with
        stage := { s.stage with lastResult := { hasResult := true, detections := d :: dets } }
        worker := .resting }
  | .found _ => { s with worker := .resting }
  | _ => s

def rest : SharedFrames κ :=
  match s.worker with
  | .resting => { s with stage := { s.stage with inferRunning := false }, worker := .waiting }
  | _ => s

/-- `RuleStage::ProcessFrame` -/
def rule (engine : RuleEngine) (now : ℤ) : SharedFrames κ :=
  match s.ruleQueue with
  | [] => s
  | n :: queue =>
      match s.frames[n]? with
      | none => s
      | some frame =>
          { s with
            frames := s.frames.set n (RuleStage.processFrame srt engine frame now).2
            ruleQueue := queue
            overlayQueue := s.overlayQueue ++ [n] }

/-- `OverlayStage::ProcessFrame`: the picture is drawn into where it lies. -/
def overlay (now : ℤ) : SharedFrames κ :=
  match s.overlayQueue with
  | [] => s
  | n :: queue =>
      match s.frames[n]? with
      | none => s
      | some frame =>
          match frame.type, frame.data with
          | .raw, some image =>
              let (renderer, drawn) := s.renderer.render osd now frame.info
                frame.analysis.detections frame.ruleOverlay image
              { s with
                renderer := renderer
                frames := s.frames.set n { frame with data := some drawn }
                overlayQueue := queue
                rendered := (n, drawn) :: s.rendered }
          | _, _ => { s with overlayQueue := queue }

def step (s : SharedFrames κ) : FrameStep → SharedFrames κ
  | .deliver frame => s.deliver frame
  | .count => s.count
  | .submit => s.submit
  | .pass => s.pass
  | .take => s.take
  | .infer => s.infer
  | .store => s.store
  | .rest => s.rest
  | .rule engine now => s.rule srt engine now
  | .overlay now => s.overlay osd now
  | .dropRule i => { s with ruleQueue := s.ruleQueue.eraseIdx i }
  | .dropOverlay i => { s with overlayQueue := s.overlayQueue.eraseIdx i }

/-- Stages that have not seen a frame. -/
def start (engine : Detector) (renderer : OsdRenderer κ) (confidenceThreshold : ℚ)
    (skipFrames : ℤ) : SharedFrames κ where
  engine := engine
  renderer := renderer
  stage := { confidenceThreshold, skipFrames }

end SharedFrames

end LoongNvr.Channel
