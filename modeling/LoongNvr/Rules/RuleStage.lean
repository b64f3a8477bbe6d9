import LoongNvr.Rules.RuleEngine

/-!
# Rules — RuleStage

The pipeline stage that evaluates the rules of a frame's channel and draws their geometry.

* `processFrame_frame`: the stage changes nothing of a frame but its rule overlay.
-/

namespace LoongNvr.Rules.RuleStage
open LoongNvr.Core Support IouTracker

/-- The time of a frame in milliseconds; the wall clock where its `pts` gives none. -/
def timestampMs (frame : Frame) (now : ℤ) : ℤ :=
  if frame.pts.tdiv 1000 ≤ 0 then now else frame.pts.tdiv 1000

/-- The context a frame is evaluated under. -/
def frameContext (frame : Frame) (now : ℤ) : FrameContext where
  channelId := frame.channelId
  frameWidth := frame.info.width
  frameHeight := frame.info.height
  timestampMs := timestampMs frame now

/-- The highlight of an event's target: for loitering and for alarms. -/
def highlight (ev : RuleEvent) : Option RuleTargetHighlight :=
  if ev.ruleType = .loitering ∨ ev.severity = .alarm then
    some
      { x1 := ev.triggerDetection.x1
        y1 := ev.triggerDetection.y1
        x2 := ev.triggerDetection.x2
        y2 := ev.triggerDetection.y2
        alarm := decide (ev.severity = .alarm)
        label :=
          if ev.ruleType = .loitering then ev.ruleName ++ " " ++ toString ev.dwellTimeSec ++ "s"
          else ev.ruleName }
  else none

/-- Has the frame detections to evaluate? -/
def hasDetections (frame : Frame) : Bool :=
  frame.analysis.hasResult && !frame.analysis.detections.isEmpty

/-- The rules of the frame's channel on its detections; the events. -/
def evaluateFrame (srt : PairSorter) (engine : RuleEngine) (frame : Frame) (now : ℤ) :
    RuleEngine × List RuleEvent :=
  if hasDetections frame then
    engine.evaluate srt frame.channelId frame.analysis.detections (frameContext frame now)
  else (engine, [])

/-- `RuleStage::ProcessFrame`, the rule engine set: the engine and the frame passed on. -/
def processFrame (srt : PairSorter) (engine : RuleEngine) (frame : Frame) (now : ℤ) :
    RuleEngine × Frame :=
  let (engine, events) := evaluateFrame srt engine frame now
  let overlay := engine.buildOverlayData frame.channelId
  (engine,
    { frame with
      ruleOverlay :=
        { lines := overlay.lines
          regions := overlay.regions
          highlights := frame.ruleOverlay.highlights ++ events.filterMap highlight } })

/-- **The frame passed on** is the frame, but for its rule overlay. -/
theorem processFrame_frame (srt : PairSorter) (engine : RuleEngine) (frame : Frame) (now : ℤ) :
    ∃ overlay, (processFrame srt engine frame now).2 = { frame with ruleOverlay := overlay } :=
  ⟨_, rfl⟩

/-- The geometry left on the frame is that of its channel, after the evaluation. -/
theorem processFrame_overlay (srt : PairSorter) (engine : RuleEngine) (frame : Frame) (now : ℤ) :
    (processFrame srt engine frame now).2.ruleOverlay.lines =
        ((processFrame srt engine frame now).1.buildOverlayData frame.channelId).lines ∧
      (processFrame srt engine frame now).2.ruleOverlay.regions =
        ((processFrame srt engine frame now).1.buildOverlayData frame.channelId).regions :=
  ⟨rfl, rfl⟩

end LoongNvr.Rules.RuleStage
