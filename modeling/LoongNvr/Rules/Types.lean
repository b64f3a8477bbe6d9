import LoongNvr.Core.Types

/-!
# Rules — Types

Analysis rules, the events they generate, and the tracks their evaluators keep.
-/

namespace LoongNvr.Rules
open LoongNvr.Core

/-- Supported analysis rule types. -/
inductive RuleType
  | crossLine
  | regionIntrusion
  | objectCounting
  | loitering
  deriving DecidableEq, Repr

/-- `RuleTypeToString` -/
def RuleType.toString : RuleType → String
  | .crossLine => "cross_line"
  | .regionIntrusion => "region_intrusion"
  | .objectCounting => "object_counting"
  | .loitering => "loitering"

/-- `ParseRuleType`: an unknown name is a cross-line rule. -/
def parseRuleType (s : String) : RuleType :=
  if s = "cross_line" then .crossLine
  else if s = "region_intrusion" then .regionIntrusion
  else if s = "object_counting" then .objectCounting
  else if s = "loitering" then .loitering
  else .crossLine

/-- A point in normalized coordinates, 0 to 1 over the frame. -/
structure Point2D where
  x : ℚ := 0
  y : ℚ := 0
  deriving DecidableEq, Repr

/-- A virtual line; with `bidirectional` off only the crossings from A to B trigger. -/
structure VirtualLine where
  start : Point2D := {}
  stop : Point2D := {}
  bidirectional : Bool := true
  deriving DecidableEq, Repr

/-- A polygon, by its vertices. -/
structure Region where
  vertices : List Point2D := []
  deriving DecidableEq, Repr

/-- Schedule for when a rule is active: times "HH:MM", weekdays from 0 (Sunday), none for every
day. -/
structure RuleSchedule where
  alwaysActive : Bool := true
  startTime : String := ""
  endTime : String := ""
  weekdays : List ℤ := []
  deriving DecidableEq, Repr

/-- Persistent analysis rule definition. -/
structure AnalysisRule where
  id : ℤ := 0
  name : String := ""
  type : RuleType := .crossLine
  channelId : ℤ := -1
  enabled : Bool := true
  line : VirtualLine := {}
  region : Region := {}
  targetClasses : List String := []
  minConfidence : ℚ := 1 / 2
  loiterTimeSec : ℤ := 30
  cooldownSec : ℤ := 60
  schedule : RuleSchedule := {}
  createdAt : ℤ := 0
  updatedAt : ℤ := 0
  deriving DecidableEq, Repr

/-- The rule with another schedule. -/
def AnalysisRule.withSchedule (rule : AnalysisRule) (schedule : RuleSchedule) : AnalysisRule :=
  { rule with schedule := schedule }

/-- Event severity levels. -/
inductive RuleEventSeverity
  | info
  | warning
  | alarm
  deriving DecidableEq, Repr

/-- `SeverityToString` -/
def RuleEventSeverity.toString : RuleEventSeverity → String
  | .info => "info"
  | .warning => "warning"
  | .alarm => "alarm"

/-- An event generated by rule evaluation; the timestamp is in milliseconds. -/
structure RuleEvent where
  ruleId : ℤ
  ruleName : String
  ruleType : RuleType
  channelId : ℤ
  timestamp : ℤ
  severity : RuleEventSeverity := .alarm
  triggerDetection : Detection
  countValue : ℤ := 0
  dwellTimeSec : ℤ := 0
  direction : String := ""
  metadataJson : String := ""
  deriving DecidableEq, Repr

/-- Lightweight track for IOU-based frame-to-frame object association. -/
structure TrackedObject where
  trackId : ℤ := 0
  lastDetection : Detection
  trajectory : List Point2D := []
  age : ℤ := 0
  framesMissing : ℤ := 0
  active : Bool := true
  deriving DecidableEq, Repr

/-- Frame context passed to evaluators alongside detection results. -/
structure FrameContext where
  channelId : ℤ := -1
  timestampMs : ℤ := 0
  frameWidth : ℤ := 0
  frameHeight : ℤ := 0
  deriving DecidableEq, Repr

end LoongNvr.Rules
