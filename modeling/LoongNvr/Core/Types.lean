import Mathlib.Data.Rat.Defs
import Mathlib.Data.Int.Notation
import Mathlib.Data.Int.Cast.Basic

/-!
# Core — Types

The data that flows between the modules: detections, analysis results, the overlay a rule stage
leaves for the overlay stage, and frames.

Floating-point numbers are rationals, and `int` and `int64_t` values integers; where a modelled
function lets one wrap, its definition says so.
-/

namespace LoongNvr.Core

/-- The values of an `int`. -/
def IsInt (n : ℤ) : Prop := -2147483648 ≤ n ∧ n < 2147483648

instance (n : ℤ) : Decidable (IsInt n) := inferInstanceAs (Decidable (_ ∧ _))

/-- A 64-bit product or quotient stored in a 32-bit `int`. -/
def toInt32 (x : ℤ) : ℤ := Int.bmod x 4294967296

/-- The values of an `int64_t`. -/
def IsInt64 (x : ℤ) : Prop := -9223372036854775808 ≤ x ∧ x < 9223372036854775808

instance (x : ℤ) : Decidable (IsInt64 x) := inferInstanceAs (Decidable (_ ∧ _))

/-- A sum, difference or product stored in an `int64_t`. -/
def toInt64 (x : ℤ) : ℤ := Int.bmod x 18446744073709551616

/-- A counter that is counted up. -/
theorem toInt32_succ (k : ℕ) : toInt32 (toInt32 k + 1) = toInt32 (k + 1 : ℕ) := by
  rw [toInt32, toInt32, Int.bmod_add_bmod]
  rfl

theorem toInt32_of_isInt {n : ℤ} (h : IsInt n) : toInt32 n = n := by
  obtain ⟨hlow, hhigh⟩ := h
  exact Int.bmod_eq_of_le_mul_two (by omega) (by omega)

theorem isInt_toInt32 (x : ℤ) : IsInt (toInt32 x) := by
  have hlow := Int.le_bmod (x := x) (show 0 < 4294967296 by decide)
  have hhigh := Int.bmod_lt (x := x) (show 0 < 4294967296 by decide)
  unfold IsInt toInt32
  omega

theorem toInt32_of_fits {v : ℤ} (hnonneg : 0 ≤ v) (hsmall : v < 2147483648) : toInt32 v = v :=
  toInt32_of_isInt ⟨by omega, hsmall⟩

theorem toInt64_of_isInt64 {x : ℤ} (h : IsInt64 x) : toInt64 x = x := by
  obtain ⟨hlow, hhigh⟩ := h
  exact Int.bmod_eq_of_le_mul_two (by omega) (by omega)

/-- What wraps becomes smaller. -/
theorem toInt32_le {v : ℤ} (hnonneg : 0 ≤ v) : toInt32 v ≤ v := by
  unfold toInt32 Int.bmod
  dsimp only
  split <;> omega

/-- Detection result from AI analysis; the box is in absolute coordinates. -/
structure Detection where
  x1 : ℚ
  y1 : ℚ
  x2 : ℚ
  y2 : ℚ
  confidence : ℚ
  classId : ℤ
  className : String
  deriving DecidableEq, Repr

/-- Result from a secondary model applied to the region of a primary detection. -/
structure SecondaryResult where
  parentIndex : ℤ := -1
  modelName : String
  detections : List Detection
  deriving DecidableEq, Repr

/-- Analysis result attached to a frame after AI processing. -/
structure AnalysisResult where
  hasResult : Bool := false
  detections : List Detection := []
  secondaryResults : List SecondaryResult := []
  deriving DecidableEq, Repr

/-- Visual overlay for a virtual line (cross-line and counting rules). -/
structure RuleLineOverlay where
  x1 : ℚ
  y1 : ℚ
  x2 : ℚ
  y2 : ℚ
  label : String
  countAToB : ℤ := 0
  countBToA : ℤ := 0
  showCounts : Bool := false
  deriving DecidableEq, Repr

/-- Visual overlay for a polygon region (intrusion and loitering rules). -/
structure RuleRegionOverlay where
  vertices : List (ℚ × ℚ)
  label : String
  alarmActive : Bool := false
  deriving DecidableEq, Repr

/-- Highlight for a target under rule evaluation, in absolute pixel coordinates. -/
structure RuleTargetHighlight where
  x1 : ℚ := 0
  y1 : ℚ := 0
  x2 : ℚ := 0
  y2 : ℚ := 0
  label : String
  alarm : Bool := false
  deriving DecidableEq, Repr

/-- Rule visualization data attached to a frame. -/
structure RuleOverlayData where
  lines : List RuleLineOverlay := []
  regions : List RuleRegionOverlay := []
  highlights : List RuleTargetHighlight := []
  deriving DecidableEq, Repr

/-- A BGR picture in memory, three bytes a pixel. -/
structure Image where
  width : ℤ
  height : ℤ
  data : List UInt8
  width_pos : 0 < width
  height_pos : 0 < height
  size_eq : (data.length : ℤ) = width * height * 3

/-- A black square. -/
def blackSquare (side : ℕ) (h : 0 < side) : Image where
  width := side
  height := side
  data := List.replicate (side * side * 3) 0
  width_pos := Int.natCast_pos.mpr h
  height_pos := Int.natCast_pos.mpr h
  size_eq := by simp

/-- Video codec type. -/
inductive CodecType
  | h264
  | h265
  | unknown
  deriving DecidableEq, Repr

/-- Frame type: decoded or encoded. -/
inductive FrameType
  | raw
  | encoded
  deriving DecidableEq, Repr

/-- Video frame metadata. -/
structure FrameInfo where
  width : ℤ := 0
  height : ℤ := 0
  stride : ℤ := 0
  isKeyframe : Bool := false
  codec : CodecType := .unknown
  deriving DecidableEq, Repr

/-- A video frame flowing through the pipeline; `pts` is declared to be in microseconds.

`origin` is a history variable that no stage reads: the presentation time, in the stream's time
base, of the packet the frame comes from. -/
structure Frame where
  channelId : ℤ := -1
  pts : ℤ := 0
  dts : ℤ := 0
  type : FrameType := .raw
  info : FrameInfo := {}
  data : Option Image := none
  packetData : List UInt8 := []
  analysis : AnalysisResult := {}
  ruleOverlay : RuleOverlayData := {}
  origin : ℤ

end LoongNvr.Core
