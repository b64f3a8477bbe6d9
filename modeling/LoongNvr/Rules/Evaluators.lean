import LoongNvr.Rules.IouTracker
import LoongNvr.Support.Runs
import Mathlib.Logic.Function.Basic

/-!
# Rules — Evaluators

The four rule evaluators and the interface the engine calls them by.  Each tracks the detections
its rule lets through and keeps, for every track, what it saw last: a side of the line, whether
it was in the region, how long it has been there.  These maps are functions, and the clean-up at
the end of a call forgets the tracks the tracker no longer has.

* `Evaluator.evaluate_event`: every event names its evaluator's rule and carries the frame's
  channel and timestamp.
* `Evaluator.evaluate_withSchedule`: no evaluator looks at its rule's schedule.
-/

namespace LoongNvr.Rules
open LoongNvr.Core Support IouTracker

/-! ### What the evaluators share -/

/-- `FilterDetections`, the same in the four classes. -/
def filterDetections (rule : AnalysisRule) (detections : List Detection) : List Detection :=
  detections.filter fun det =>
    !(det.confidence < rule.minConfidence) &&
      (rule.targetClasses.isEmpty || rule.targetClasses.contains det.className)

/-- `CrossProduct` of the line and the point. -/
def crossProduct (lineStart lineEnd point : Point2D) : ℚ :=
  let dxLine := lineEnd.x - lineStart.x
  let dyLine := lineEnd.y - lineStart.y
  let dxPoint := point.x - lineStart.x
  let dyPoint := point.y - lineStart.y
  dxLine * dyPoint - dyLine * dxPoint

/-- The tracker configuration the evaluators use. -/
def trackerConfig : Config where
  iouThreshold := 1 / 4
  maxFramesMissing := 10
  maxTrajectoryPoints := 30

/-- The latest center of a track, normalized; the loops skip tracks that have none. -/
def currentCenter (track : TrackedObject) (context : FrameContext) : Point2D :=
  normalizePoint (track.trajectory.getLast?.getD {}) context.frameWidth context.frameHeight

/-- The side of the line the track is on: 1, -1, or 0 on the line. -/
def currentSide (rule : AnalysisRule) (track : TrackedObject) (context : FrameContext) : ℤ :=
  let cp := crossProduct rule.line.start rule.line.stop (currentCenter track context)
  if cp > 0 then 1 else if cp < 0 then -1 else 0

/-- The direction of a change of side. -/
def crossingDirection (prevSide side : ℤ) : String :=
  if prevSide > 0 ∧ side < 0 then "A_to_B" else "B_to_A"

/-- The clean-up loop over a per-track map. -/
def dropStale {α : Type} (tracker : IouTracker) (m : ℤ → Option α) : ℤ → Option α :=
  fun trackId => if (tracker.getTrack trackId).isSome then m trackId else none

/-- The fields every evaluator fills an event with. -/
def makeEvent (rule : AnalysisRule) (type : RuleType) (context : FrameContext)
    (track : TrackedObject) : RuleEvent where
  ruleId := rule.id
  ruleName := rule.name
  ruleType := type
  channelId := context.channelId
  timestamp := context.timestampMs
  triggerDetection := track.lastDetection

/-! ### Cross line -/

/-- The state of a `CrossLineEvaluator`. -/
structure CrossLineEvaluator where
  rule : AnalysisRule := {}
  tracker : IouTracker := {}
  lastSide : ℤ → Option ℤ := fun _ => none

namespace CrossLineEvaluator

/-- `Configure` -/
def configure (_ : CrossLineEvaluator) (rule : AnalysisRule) : CrossLineEvaluator :=
  { rule := rule, tracker := { config := trackerConfig }, lastSide := fun _ => none }

/-- One turn of the loop over the tracks. -/
def visitTrack (rule : AnalysisRule) (context : FrameContext)
    (acc : (ℤ → Option ℤ) × List RuleEvent) (track : TrackedObject) :
    (ℤ → Option ℤ) × List RuleEvent :=
  let (lastSide, events) := acc
  if !track.active || track.trajectory.length < 2 then acc
  else
    let side := currentSide rule track context
    if side = 0 then acc
    else
      let recorded := Function.update lastSide track.trackId (some side)
      match lastSide track.trackId with
      | none => (recorded, events)
      | some prevSide =>
          if prevSide ≠ 0 ∧ prevSide ≠ side then
            let direction := crossingDirection prevSide side
            if !rule.line.bidirectional && direction != "A_to_B" then (recorded, events)
            else
              let event := { makeEvent rule .crossLine context track with
                severity := .alarm, direction := direction }
              (recorded, events ++ [event])
          else (recorded, events)

/-- `Evaluate`; with no detection left after the filter it only ages the tracks. -/
def evaluate (srt : PairSorter) (e : CrossLineEvaluator) (detections : List Detection)
    (context : FrameContext) : CrossLineEvaluator × List RuleEvent :=
  let filtered := filterDetections e.rule detections
  let tracker := update srt e.tracker filtered
  if filtered.isEmpty then ({ e with tracker := tracker }, [])
  else
    let (lastSide, events) := tracker.tracks.foldl (visitTrack e.rule context) (e.lastSide, [])
    ({ e with tracker := tracker, lastSide := dropStale tracker lastSide }, events)

end CrossLineEvaluator

/-! ### Counting -/

/-- The state of a `CountingEvaluator`. -/
structure CountingEvaluator where
  rule : AnalysisRule := {}
  tracker : IouTracker := {}
  lastSide : ℤ → Option ℤ := fun _ => none
  countAToB : ℤ := 0
  countBToA : ℤ := 0

namespace CountingEvaluator

/-- `Configure` -/
def configure (_ : CountingEvaluator) (rule : AnalysisRule) : CountingEvaluator :=
  { rule := rule, tracker := { config := trackerConfig }, lastSide := fun _ => none,
    countAToB := 0, countBToA := 0 }

/-- One turn of the loop over the tracks. -/
def visitTrack (context : FrameContext) (acc : CountingEvaluator × List RuleEvent)
    (track : TrackedObject) : CountingEvaluator × List RuleEvent :=
  let (e, events) := acc
  if !track.active || track.trajectory.length < 2 then acc
  else
    let side := currentSide e.rule track context
    if side = 0 then acc
    else
      let recorded := Function.update e.lastSide track.trackId (some side)
      match e.lastSide track.trackId with
      | none => ({ e with lastSide := recorded }, events)
      | some prevSide =>
          if prevSide ≠ 0 ∧ prevSide ≠ side then
            let direction := crossingDirection prevSide side
            let countAToB := if direction = "A_to_B" then e.countAToB + 1 else e.countAToB
            let countBToA := if direction = "A_to_B" then e.countBToA else e.countBToA + 1
            let event := { makeEvent e.rule .objectCounting context track with
              severity := .info, direction := direction, countValue := countAToB - countBToA }
            ({ e with lastSide := recorded, countAToB := countAToB, countBToA := countBToA },
              events ++ [event])
          else ({ e with lastSide := recorded }, events)

/-- `Evaluate` -/
def evaluate (srt : PairSorter) (e : CountingEvaluator) (detections : List Detection)
    (context : FrameContext) : CountingEvaluator × List RuleEvent :=
  let tracker := update srt e.tracker (filterDetections e.rule detections)
  let (e, events) := tracker.tracks.foldl (visitTrack context) ({ e with tracker := tracker }, [])
  ({ e with lastSide := dropStale tracker e.lastSide }, events)

end CountingEvaluator

/-! ### Region intrusion -/

/-- Does the ray from the point to the right cross the edge?  (`PointInPolygon`, one edge.) -/
def rayCrosses (point vi vj : Point2D) : Bool :=
  (decide (vi.y > point.y) != decide (vj.y > point.y)) &&
    decide (point.x < (vj.x - vi.x) * (point.y - vi.y) / (vj.y - vi.y) + vi.x)

/-- `RegionIntrusionEvaluator::PointInPolygon`: each vertex with the one before it. -/
def pointInPolygon (point : Point2D) (polygon : List Point2D) : Bool :=
  if polygon.length < 3 then false
  else (polygon.zip (polygon.rotateRight 1)).foldl
    (fun inside (vi, vj) => if rayCrosses point vi vj then !inside else inside) false

/-- The state of a `RegionIntrusionEvaluator`. -/
structure RegionIntrusionEvaluator where
  rule : AnalysisRule := {}
  tracker : IouTracker := {}
  wasInside : ℤ → Option Bool := fun _ => none

namespace RegionIntrusionEvaluator

/-- `Configure`; with fewer than 3 vertices it returns false and keeps only the rule. -/
def configure (e : RegionIntrusionEvaluator) (rule : AnalysisRule) : RegionIntrusionEvaluator :=
  if rule.region.vertices.length < 3 then { e with rule := rule }
  else { rule := rule, tracker := { config := trackerConfig }, wasInside := fun _ => none }

/-- One turn of the loop over the tracks. -/
def visitTrack (rule : AnalysisRule) (context : FrameContext)
    (acc : (ℤ → Option Bool) × List RuleEvent) (track : TrackedObject) :
    (ℤ → Option Bool) × List RuleEvent :=
  let (wasInside, events) := acc
  if !track.active || track.trajectory.isEmpty then acc
  else
    let inside := pointInPolygon (currentCenter track context) rule.region.vertices
    let recorded := Function.update wasInside track.trackId (some inside)
    let event := { makeEvent rule .regionIntrusion context track with
      severity := .alarm, direction := "enter" }
    match wasInside track.trackId with
    | none => (recorded, if inside then events ++ [event] else events)
    | some was => (recorded, if !was && inside then events ++ [event] else events)

/-- `Evaluate` -/
def evaluate (srt : PairSorter) (e : RegionIntrusionEvaluator) (detections : List Detection)
    (context : FrameContext) : RegionIntrusionEvaluator × List RuleEvent :=
  if e.rule.region.vertices.length < 3 then (e, [])
  else
    let tracker := update srt e.tracker (filterDetections e.rule detections)
    let (wasInside, events) := tracker.tracks.foldl (visitTrack e.rule context) (e.wasInside, [])
    ({ e with tracker := tracker, wasInside := dropStale tracker wasInside }, events)

end RegionIntrusionEvaluator

/-! ### Loitering -/

/-- `LoiteringEvaluator::TrackState` -/
structure LoiterState where
  enterTimestampMs : ℤ := 0
  lastAlertMs : ℤ := 0
  inside : Bool := false
  alerted : Bool := false
  deriving DecidableEq, Repr

/-- The state of a `LoiteringEvaluator`. -/
structure LoiteringEvaluator where
  rule : AnalysisRule := {}
  tracker : IouTracker := {}
  trackStates : ℤ → Option LoiterState := fun _ => none

namespace LoiteringEvaluator

/-- `Configure`; with fewer than 3 vertices it returns false and keeps only the rule. -/
def configure (e : LoiteringEvaluator) (rule : AnalysisRule) : LoiteringEvaluator :=
  if rule.region.vertices.length < 3 then { e with rule := rule }
  else { rule := rule, tracker := { config := trackerConfig }, trackStates := fun _ => none }

/-- The state of a track inside the region, entered now or before. -/
def enter (context : FrameContext) (state : LoiterState) : LoiterState :=
  if state.inside then state
  else { state with inside := true, enterTimestampMs := context.timestampMs, alerted := false }

/-- Whether a track inside the region is due for an alert. -/
def shouldAlert (rule : AnalysisRule) (context : FrameContext) (state : LoiterState) : Bool :=
  let thresholdMs := rule.loiterTimeSec * 1000
  let cooldownMs := rule.cooldownSec * 1000
  let dwellMs := context.timestampMs - state.enterTimestampMs
  decide (dwellMs ≥ thresholdMs) && (!state.alerted ||
    (decide (cooldownMs > 0) && decide (context.timestampMs - state.lastAlertMs ≥ cooldownMs)))

/-- The state of a track outside the region. -/
def leave (state : LoiterState) : LoiterState :=
  if state.inside then { state with inside := false, alerted := false, enterTimestampMs := 0 }
  else state

/-- One turn of the loop over the tracks. -/
def visitTrack (rule : AnalysisRule) (context : FrameContext)
    (acc : (ℤ → Option LoiterState) × List RuleEvent) (track : TrackedObject) :
    (ℤ → Option LoiterState) × List RuleEvent :=
  let (trackStates, events) := acc
  if !track.active || track.trajectory.isEmpty then acc
  else
    let state := (trackStates track.trackId).getD {}
    if pointInPolygon (currentCenter track context) rule.region.vertices then
      let state := enter context state
      if shouldAlert rule context state then
        let dwellMs := context.timestampMs - state.enterTimestampMs
        let event := { makeEvent rule .loitering context track with
          severity := .alarm, dwellTimeSec := toInt32 (dwellMs.tdiv 1000) }
        let state := { state with alerted := true, lastAlertMs := context.timestampMs }
        (Function.update trackStates track.trackId (some state), events ++ [event])
      else (Function.update trackStates track.trackId (some state), events)
    else (Function.update trackStates track.trackId (some (leave state)), events)

/-- `Evaluate` -/
def evaluate (srt : PairSorter) (e : LoiteringEvaluator) (detections : List Detection)
    (context : FrameContext) : LoiteringEvaluator × List RuleEvent :=
  if e.rule.region.vertices.length < 3 then (e, [])
  else
    let tracker := update srt e.tracker (filterDetections e.rule detections)
    let (trackStates, events) :=
      tracker.tracks.foldl (visitTrack e.rule context) (e.trackStates, [])
    ({ e with tracker := tracker, trackStates := dropStale tracker trackStates }, events)

end LoiteringEvaluator

/-! ### The interface -/

/-- A `RuleEvaluator`, by its class. -/
inductive Evaluator
  | crossLine (e : CrossLineEvaluator)
  | regionIntrusion (e : RegionIntrusionEvaluator)
  | counting (e : CountingEvaluator)
  | loitering (e : LoiteringEvaluator)

/-- `CreateEvaluator` -/
def createEvaluator : RuleType → Evaluator
  | .crossLine => .crossLine {}
  | .regionIntrusion => .regionIntrusion {}
  | .objectCounting => .counting {}
  | .loitering => .loitering {}

namespace Evaluator

/-- `RuleEvaluator::Configure` -/
def configure (rule : AnalysisRule) : Evaluator → Evaluator
  | .crossLine e => .crossLine (e.configure rule)
  | .regionIntrusion e => .regionIntrusion (e.configure rule)
  | .counting e => .counting (e.configure rule)
  | .loitering e => .loitering (e.configure rule)

/-- `RuleEvaluator::Evaluate` -/
def evaluate (srt : PairSorter) (detections : List Detection) (context : FrameContext) :
    Evaluator → Evaluator × List RuleEvent
  | .crossLine e => (e.evaluate srt detections context).map .crossLine id
  | .regionIntrusion e => (e.evaluate srt detections context).map .regionIntrusion id
  | .counting e => (e.evaluate srt detections context).map .counting id
  | .loitering e => (e.evaluate srt detections context).map .loitering id

/-- The rule an evaluator is configured with. -/
def rule : Evaluator → AnalysisRule
  | .crossLine e => e.rule
  | .regionIntrusion e => e.rule
  | .counting e => e.rule
  | .loitering e => e.rule

/-- `GetCountAtoB` and `GetCountBtoA`, where the evaluator is a counting one. -/
def counts : Evaluator → Option (ℤ × ℤ)
  | .counting e => some (e.countAToB, e.countBToA)
  | _ => none

/-- The evaluator with another rule. -/
def mapRule (f : AnalysisRule → AnalysisRule) : Evaluator → Evaluator
  | .crossLine e => .crossLine { e with rule := f e.rule }
  | .regionIntrusion e => .regionIntrusion { e with rule := f e.rule }
  | .counting e => .counting { e with rule := f e.rule }
  | .loitering e => .loitering { e with rule := f e.rule }

/-- The evaluator with another schedule in its rule. -/
def withSchedule (schedule : RuleSchedule) : Evaluator → Evaluator :=
  mapRule (·.withSchedule schedule)

end Evaluator

/-! ### What an event says -/

/-- The event names the rule and the frame. -/
def Names (rule : AnalysisRule) (context : FrameContext) (event : RuleEvent) : Prop :=
  event.ruleId = rule.id ∧ event.channelId = context.channelId ∧
    event.timestamp = context.timestampMs

/-- All the events of a list name the rule and the frame. -/
def AllName (rule : AnalysisRule) (context : FrameContext) (events : List RuleEvent) : Prop :=
  ∀ event ∈ events, Names rule context event

section Events

variable {rule : AnalysisRule} {context : FrameContext} {events : List RuleEvent}

theorem allName_nil : AllName rule context [] := fun _ h => absurd h List.not_mem_nil

theorem AllName.append {event : RuleEvent} (h : AllName rule context events)
    (hevent : Names rule context event) : AllName rule context (events ++ [event]) := by
  intro event' hmem
  rcases List.mem_append.mp hmem with hold | hnew
  · exact h event' hold
  · exact List.mem_singleton.mp hnew ▸ hevent

theorem CrossLineEvaluator.visitTrack_events (acc : (ℤ → Option ℤ) × List RuleEvent)
    (track : TrackedObject) (h : AllName rule context acc.2) :
    AllName rule context (visitTrack rule context acc track).2 := by
  unfold visitTrack
  dsimp only
  -- only the last branch, a crossing, adds an event
  split
  · exact h
  · split
    · exact h
    · split
      · exact h
      · split
        · split
          · exact h
          · exact h.append ⟨rfl, rfl, rfl⟩
        · exact h

theorem CountingEvaluator.visitTrack_events (acc : CountingEvaluator × List RuleEvent)
    (track : TrackedObject) (h : acc.1.rule = rule ∧ AllName rule context acc.2) :
    (visitTrack context acc track).1.rule = rule ∧
      AllName rule context (visitTrack context acc track).2 := by
  obtain ⟨rfl, hevents⟩ := h
  unfold visitTrack
  dsimp only
  split
  · exact ⟨rfl, hevents⟩
  · split
    · exact ⟨rfl, hevents⟩
    · split
      · exact ⟨rfl, hevents⟩
      · split
        · exact ⟨rfl, hevents.append ⟨rfl, rfl, rfl⟩⟩
        · exact ⟨rfl, hevents⟩

theorem RegionIntrusionEvaluator.visitTrack_events (acc : (ℤ → Option Bool) × List RuleEvent)
    (track : TrackedObject) (h : AllName rule context acc.2) :
    AllName rule context (visitTrack rule context acc track).2 := by
  unfold visitTrack
  dsimp only
  split
  · exact h
  · -- the first sight of the track or a later one, with the track inside or outside
    split <;> dsimp only <;> split
    · exact h.append ⟨rfl, rfl, rfl⟩
    · exact h
    · exact h.append ⟨rfl, rfl, rfl⟩
    · exact h

theorem LoiteringEvaluator.visitTrack_events (acc : (ℤ → Option LoiterState) × List RuleEvent)
    (track : TrackedObject) (h : AllName rule context acc.2) :
    AllName rule context (visitTrack rule context acc track).2 := by
  unfold visitTrack
  dsimp only
  split
  · exact h
  · split
    · split
      · exact h.append ⟨rfl, rfl, rfl⟩
      · exact h
    · exact h

variable (srt : PairSorter) (detections : List Detection) (context)

/-- **Every event names its rule and its frame**, and a call leaves the rule as it is. -/
theorem Evaluator.evaluate_event (e : Evaluator) :
    (e.evaluate srt detections context).1.rule = e.rule ∧
      AllName e.rule context (e.evaluate srt detections context).2 := by
  cases e with
  | crossLine e =>
      simp only [evaluate, CrossLineEvaluator.evaluate, Prod.map]
      split
      · exact ⟨rfl, allName_nil⟩
      · exact ⟨rfl, foldl_of_step
          (P := fun acc : (ℤ → Option ℤ) × List RuleEvent => AllName e.rule context acc.2)
          CrossLineEvaluator.visitTrack_events _ allName_nil⟩
  | regionIntrusion e =>
      simp only [evaluate, RegionIntrusionEvaluator.evaluate, Prod.map]
      split
      · exact ⟨rfl, allName_nil⟩
      · exact ⟨rfl, foldl_of_step
          (P := fun acc : (ℤ → Option Bool) × List RuleEvent => AllName e.rule context acc.2)
          RegionIntrusionEvaluator.visitTrack_events _ allName_nil⟩
  | counting e =>
      simp only [evaluate, CountingEvaluator.evaluate, Prod.map]
      exact foldl_of_step
        (P := fun acc : CountingEvaluator × List RuleEvent =>
          acc.1.rule = e.rule ∧ AllName e.rule context acc.2)
        CountingEvaluator.visitTrack_events _ ⟨rfl, allName_nil⟩
  | loitering e =>
      simp only [evaluate, LoiteringEvaluator.evaluate, Prod.map]
      split
      · exact ⟨rfl, allName_nil⟩
      · exact ⟨rfl, foldl_of_step
          (P := fun acc : (ℤ → Option LoiterState) × List RuleEvent =>
            AllName e.rule context acc.2)
          LoiteringEvaluator.visitTrack_events _ allName_nil⟩

@[simp] theorem Evaluator.configure_rule (rule : AnalysisRule) (e : Evaluator) :
    (e.configure rule).rule = rule := by
  cases e with
  | crossLine e => rfl
  | counting e => rfl
  | regionIntrusion e =>
      simp only [configure, RegionIntrusionEvaluator.configure, Evaluator.rule]
      split <;> rfl
  | loitering e =>
      simp only [configure, LoiteringEvaluator.configure, Evaluator.rule]
      split <;> rfl

end Events

/-! ### The schedule -/

section Schedule

variable (srt : PairSorter) (schedule : RuleSchedule) (context : FrameContext)

/-- The counting loop does not look at the schedule. -/
theorem CountingEvaluator.foldl_withSchedule (tracks : List TrackedObject)
    (e : CountingEvaluator) (events : List RuleEvent) :
    tracks.foldl (visitTrack context) ({ e with rule := e.rule.withSchedule schedule }, events) =
      (tracks.foldl (visitTrack context) (e, events)).map
        (fun e => { e with rule := e.rule.withSchedule schedule }) id := by
  induction tracks generalizing e events with
  | nil => rfl
  | cons track tracks ih =>
      have hstep :
          visitTrack context ({ e with rule := e.rule.withSchedule schedule }, events) track =
            (visitTrack context (e, events) track).map
              (fun e => { e with rule := e.rule.withSchedule schedule }) id := by
        have hside : currentSide (e.rule.withSchedule schedule) track context =
            currentSide e.rule track context := rfl
        -- the side is all the loop reads of the rule before it makes an event
        unfold visitTrack
        dsimp only
        rw [hside]
        split
        · rfl
        · split
          · rfl
          · split
            · rfl
            · split <;> rfl
      rw [List.foldl_cons, List.foldl_cons, hstep]
      exact ih _ _

/-- **No evaluator looks at its schedule.** -/
theorem Evaluator.evaluate_withSchedule (e : Evaluator) (detections : List Detection) :
    (e.withSchedule schedule).evaluate srt detections context =
      (e.evaluate srt detections context).map (withSchedule schedule) id := by
  cases e with
  | crossLine e =>
      -- no evaluator looks at the schedule
      have hfilter : filterDetections (e.rule.withSchedule schedule) detections =
          filterDetections e.rule detections := rfl
      have hvisit : CrossLineEvaluator.visitTrack (e.rule.withSchedule schedule) context =
          CrossLineEvaluator.visitTrack e.rule context := rfl
      simp only [evaluate, withSchedule, mapRule, CrossLineEvaluator.evaluate, hfilter, hvisit]
      split <;> rfl
  | regionIntrusion e =>
      have hvisit : RegionIntrusionEvaluator.visitTrack (e.rule.withSchedule schedule) context =
          RegionIntrusionEvaluator.visitTrack e.rule context := rfl
      have hregion : (e.rule.withSchedule schedule).region = e.rule.region := rfl
      simp only [evaluate, withSchedule, mapRule, RegionIntrusionEvaluator.evaluate, hvisit,
        hregion]
      split <;> rfl
  | counting e =>
      set tracker := update srt e.tracker (filterDetections e.rule detections) with htracker
      have hfilter : filterDetections (e.rule.withSchedule schedule) detections =
          filterDetections e.rule detections := rfl
      have hfold := CountingEvaluator.foldl_withSchedule schedule context tracker.tracks
        { e with tracker := tracker } []
      simp only [evaluate, withSchedule, mapRule, CountingEvaluator.evaluate, hfilter, ← htracker]
      rw [hfold]
      generalize List.foldl _ _ tracker.tracks = acc
      rfl
  | loitering e =>
      have hvisit : LoiteringEvaluator.visitTrack (e.rule.withSchedule schedule) context =
          LoiteringEvaluator.visitTrack e.rule context := rfl
      have hregion : (e.rule.withSchedule schedule).region = e.rule.region := rfl
      simp only [evaluate, withSchedule, mapRule, LoiteringEvaluator.evaluate, hvisit, hregion]
      split <;> rfl

/-- Configuring with another schedule is configuring and changing the schedule. -/
theorem Evaluator.createEvaluator_withSchedule (type : RuleType) (rule : AnalysisRule) :
    (createEvaluator type).configure (rule.withSchedule schedule) =
      ((createEvaluator type).configure rule).withSchedule schedule := by
  have hregion : (rule.withSchedule schedule).region = rule.region := rfl
  cases type with
  | crossLine => rfl
  | objectCounting => rfl
  | regionIntrusion =>
      simp only [createEvaluator, configure, RegionIntrusionEvaluator.configure, hregion]
      split <;> rfl
  | loitering =>
      simp only [createEvaluator, configure, LoiteringEvaluator.configure, hregion]
      split <;> rfl

end Schedule

end LoongNvr.Rules
