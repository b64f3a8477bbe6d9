import LoongNvr.Pipeline.AsyncInference
import LoongNvr.Support.Countdown

/-!
# Pipeline — AiBatch

`AiStage::ProcessBatch`, and the same frames through `ProcessFrame` one after the other, while no
inference completes.

* `handleFrame_eq`: `handleFrame` is `AiStage.processFrame`, with what is done with the frame.
* `handleInTurn_eq`, `processBatch_eq`: what either path does with each frame.
* `pathsAgree_iff`: they agree exactly when `ProcessBatch` has no raw frame for a cascade, no
  encoded frame to give a result, and counts the frames the other counts.  It looks neither at the
  cascade nor, when it hands out the last result, at the type of the frame.
-/

namespace LoongNvr.Pipeline
open LoongNvr.Core LoongNvr.AiEngine Support

/-- What becomes of a frame: the frame as it came, the analysis it has been given when it is passed
on, whether it was left to the worker, and whether the cascade was run on it. -/
structure Handled where
  frame : Frame
  given : Option AnalysisResult := none
  submitted : Bool := false
  cascaded : Bool := false

/-- The frame passed on. -/
def Handled.passed (h : Handled) : Frame :=
  match h.given with
  | some result => { h.frame with analysis := result }
  | none => h.frame

def isRaw (frame : Frame) : Bool := frame.type == .raw

/-- `frames[i]->type == FrameType::kRaw && frames[i]->data` -/
def isPicture (frame : Frame) : Bool := isRaw frame && frame.data.isSome

namespace AiStage

/-- `ProcessFrame` -/
def handleFrame (a : AiStage) (frame : Frame) : AiStage × Handled :=
  if !isRaw frame then (a, { frame })
  else if a.engine.isNone && a.cascade.isEmpty then (a, { frame })
  else if !a.cascade.isEmpty then
    (a, { frame, given := a.cascadeResult frame, cascaded := true })
  else
    (a.submitAsync (a.withLastResult frame), { frame, given := a.given, submitted := a.submits })

/-- `ProcessFrame` on one frame after the other. -/
def handleInTurn (a : AiStage) : List Frame → AiStage × List Handled
  | [] => (a, [])
  | frame :: frames =>
      let (a, handled) := a.handleFrame frame
      let (a, rest) := a.handleInTurn frames
      (a, handled :: rest)

/-- The first loop of `ProcessBatch`: for each frame, whether it is left to the worker. -/
def submitBatch (a : AiStage) : List Frame → AiStage × List Bool
  | [] => (a, [])
  | frame :: frames =>
      if isPicture frame then
        let (stage, rest) := (a.submitAsync frame).submitBatch frames
        (stage, a.submits :: rest)
      else
        let (stage, rest) := a.submitBatch frames
        (stage, false :: rest)

/-- `ProcessBatch`: the last loop gives every frame the last result. -/
def processBatch (a : AiStage) (frames : List Frame) : AiStage × List Handled :=
  if frames.isEmpty then (a, [])
  else if a.engine.isNone then (a, frames.map ({ frame := · }))
  else
    let (a, submitted) := a.submitBatch frames
    (a, frames.zipWith (fun frame s => { frame, given := a.given, submitted := s }) submitted)

/-- **The two paths agree**: they pass on the same frames in the same order, run the cascade on the
same ones and leave the same ones to the worker; a raw frame is given the same analysis on both, an
encoded one none on either. -/
structure PathsAgree (a : AiStage) (frames : List Frame) : Prop where
  forwarded : (a.handleInTurn frames).2.map (·.frame) = (a.processBatch frames).2.map (·.frame)
  model : (a.handleInTurn frames).2.map (·.cascaded) = (a.processBatch frames).2.map (·.cascaded)
  submitted : (a.handleInTurn frames).2.map (·.submitted) =
    (a.processBatch frames).2.map (·.submitted)
  analysis : ((a.handleInTurn frames).2.filter (isRaw ·.frame)).map (·.given) =
    ((a.processBatch frames).2.filter (isRaw ·.frame)).map (·.given)
  encoded : ∀ h ∈ (a.handleInTurn frames).2 ++ (a.processBatch frames).2,
    isRaw h.frame = false → h.given = none

/-- How many frames are counted until one is left to the worker; 0 while the worker is busy. -/
def due (a : AiStage) : ℕ :=
  if a.inferRunning then 0
  else if a.skipFrames ≤ 0 then 1
  else (a.skipFrames + 1 - a.frameCounter % (a.skipFrames + 1)).toNat

/-- The raw frames up to the one that is left to the worker have their pictures, if there are that
many. -/
def CountedAlike (a : AiStage) (frames : List Frame) : Prop :=
  a.due ≤ (frames.filter isRaw).length →
    ∀ frame ∈ (frames.filter isRaw).take a.due, frame.data.isSome = true

/-! ### The stage -/

/-- What `AiStage.processFrame` returns. -/
theorem handleFrame_eq (a : AiStage) (frame : Frame) :
    (a.processFrame frame).1 = (a.handleFrame frame).1 ∧
      (a.processFrame frame).2.1 = (a.handleFrame frame).2.passed := by
  cases htype : frame.type with
  | encoded => simp [processFrame, handleFrame, isRaw, htype, Handled.passed]
  | raw =>
      simp only [processFrame, handleFrame, isRaw, htype, beq_self_eq_true, Bool.not_true,
        Bool.false_eq_true, if_false]
      split
      · exact ⟨rfl, rfl⟩
      · split
        · refine ⟨rfl, ?_⟩
          simp only [inferCascade, Handled.passed]
          cases a.cascadeResult frame <;> rfl
        · refine ⟨rfl, ?_⟩
          simp only [withLastResult, given, Handled.passed]
          split <;> rfl

/-- The remainder goes up by one, or starts again. -/
theorem emod_succ (c : ℤ) {period : ℤ} (h : 0 < period) :
    (c + 1) % period = if c % period + 1 = period then 0 else c % period + 1 := by
  have hlow := Int.emod_nonneg c h.ne'
  have hhigh := Int.emod_lt_of_pos c h
  rw [← Int.emod_add_emod]
  split
  · next hround => rw [hround, Int.emod_self]
  · exact Int.emod_eq_of_lt (by omega) (by omega)

section Submit

variable (a : AiStage) (frame : Frame)

@[simp] theorem submitAsync_engine : (a.submitAsync frame).engine = a.engine := by
  rw [submitAsync]
  split <;> rfl

@[simp] theorem submitAsync_cascade : (a.submitAsync frame).cascade = a.cascade := by
  rw [submitAsync]
  split <;> rfl

@[simp] theorem submitAsync_given : (a.submitAsync frame).given = a.given := by
  rw [submitAsync]
  split <;> rfl

/-- It is a frame's turn when the count is down to it. -/
theorem submits_eq : a.submits = decide (a.due = 1) := by
  simp only [submits, due]
  by_cases hrunning : a.inferRunning = true
  · simp [hrunning]
  · by_cases hskip : a.skipFrames ≤ 0
    · simp [hrunning, hskip]
    · have hlow := Int.emod_nonneg a.frameCounter (show a.skipFrames + 1 ≠ 0 by omega)
      have hhigh := Int.emod_lt_of_pos a.frameCounter (show 0 < a.skipFrames + 1 by omega)
      have hturn : (a.frameCounter + 1).tmod (a.skipFrames + 1) = 0 ↔
          (a.skipFrames + 1 - a.frameCounter % (a.skipFrames + 1)).toNat = 1 := by
        rw [← Int.dvd_iff_tmod_eq_zero, Int.dvd_iff_emod_eq_zero, emod_succ _ (by omega)]
        split <;> omega
      simp [hrunning, hskip, hturn]

theorem due_submitAsync : (a.submitAsync frame).due = a.due - 1 := by
  by_cases hsubmits : a.submits = true
  · have hdue : a.due = 1 := by simpa [submits_eq] using hsubmits
    rw [hdue, submitAsync, if_pos hsubmits]
    rfl
  · have hdue : a.due ≠ 1 := by simpa [submits_eq] using hsubmits
    rw [submitAsync, if_neg hsubmits]
    simp only [due] at hdue ⊢
    by_cases hrunning : a.inferRunning = true
    · simp [hrunning]
    · rw [if_neg hrunning] at hdue
      rw [if_neg hrunning, if_neg hrunning]
      by_cases hskip : a.skipFrames ≤ 0
      · exact absurd (if_pos hskip) hdue
      · have hlow := Int.emod_nonneg a.frameCounter (show a.skipFrames + 1 ≠ 0 by omega)
        have hhigh := Int.emod_lt_of_pos a.frameCounter (show 0 < a.skipFrames + 1 by omega)
        rw [if_neg hskip] at hdue
        rw [if_neg hskip, if_neg hskip, emod_succ _ (by omega)]
        split <;> omega

end Submit

/-! ### What either path does with each frame -/

/-- The frames with what they are given, whether the cascade is run on them, and these marks of what
is left to the worker. -/
def record (given : Frame → Option AnalysisResult) (cascaded : Frame → Bool) :
    List Frame → List Bool → List Handled :=
  List.zipWith fun frame submitted => ⟨frame, given frame, submitted, cascaded frame⟩

section Record

variable {given : Frame → Option AnalysisResult} {cascaded : Frame → Bool} {frames : List Frame}
  {marks : List Bool}

theorem record_unmarked : record given cascaded frames (List.replicate frames.length false) =
    frames.map fun frame => ⟨frame, given frame, false, cascaded frame⟩ := by
  induction frames with
  | nil => rfl
  | cons frame frames ih => exact congrArg (_ :: ·) ih

theorem record_submitted (h : marks.length = frames.length) :
    (record given cascaded frames marks).map (·.submitted) = marks := by
  induction frames generalizing marks with
  | nil => rw [List.eq_nil_of_length_eq_zero h]; rfl
  | cons frame frames ih =>
      obtain ⟨mark, marks, rfl⟩ := List.exists_cons_of_length_eq_add_one h
      exact congrArg (mark :: ·) (ih (Nat.succ.inj h))

/-- What is kept of each frame but the mark is a function of the frame. -/
theorem record_map {β : Type} (f : Handled → β) (g : Frame → β) (h : marks.length = frames.length)
    (hfg : ∀ frame mark, f ⟨frame, given frame, mark, cascaded frame⟩ = g frame) :
    (record given cascaded frames marks).map f = frames.map g := by
  induction frames generalizing marks with
  | nil => rfl
  | cons frame frames ih =>
      obtain ⟨mark, marks, rfl⟩ := List.exists_cons_of_length_eq_add_one h
      exact congrArg₂ List.cons (hfg frame mark) (ih (Nat.succ.inj h))

/-- The frames with what they are given. -/
theorem record_given (h : marks.length = frames.length) :
    (record given cascaded frames marks).map (fun h => (h.frame, h.given)) =
      frames.map fun frame => (frame, given frame) :=
  record_map _ _ h fun _ _ => rfl

theorem record_raw_given (h : marks.length = frames.length) :
    ((record given cascaded frames marks).filter (isRaw ·.frame)).map (·.given) =
      (frames.filter isRaw).map given := by
  have hgiven : (record given cascaded frames marks).map (fun h => (h.frame, h.given)) =
      frames.map fun frame => (frame, given frame) := record_given h
  have hpairs := congrArg (fun l => (l.filter (isRaw ·.1)).map Prod.snd) hgiven
  simp only [List.filter_map, List.map_map] at hpairs
  exact hpairs

/-- No encoded frame is given anything. -/
theorem encoded_record (h : marks.length = frames.length) :
    (∀ h ∈ record given cascaded frames marks, isRaw h.frame = false → h.given = none) ↔
      ∀ frame ∈ frames, isRaw frame = false → given frame = none := by
  have hpairs := List.forall_mem_map (f := fun h : Handled => (h.frame, h.given))
    (l := record given cascaded frames marks)
    (P := fun pair => isRaw pair.1 = false → pair.2 = none)
  rw [← hpairs, record_given h, List.forall_mem_map]

end Record

/-- What `ProcessFrame` gives a frame. -/
def givenInTurn (a : AiStage) (frame : Frame) : Option AnalysisResult :=
  if !isRaw frame then none
  else if !a.cascade.isEmpty then a.cascadeResult frame
  else if a.engine.isNone then none else a.given

/-- How many frames `ProcessFrame` counts until it leaves one to the worker; 0 where it never
does. -/
def dueInTurn (a : AiStage) : ℕ := if a.engine.isNone || !a.cascade.isEmpty then 0 else a.due

/-- How many frames `ProcessBatch` counts until it leaves one to the worker. -/
def dueInBatch (a : AiStage) : ℕ := if a.engine.isNone then 0 else a.due

theorem handleFrame_handled (a : AiStage) (frame : Frame) :
    (a.handleFrame frame).2 =
      ⟨frame, a.givenInTurn frame, isRaw frame && decide (a.dueInTurn = 1),
        isRaw frame && !a.cascade.isEmpty⟩ := by
  rcases eq_or_ne (isRaw frame) true with hraw | hraw
  · by_cases hcascade : a.cascade = []
    · cases hengine : a.engine <;>
        simp [handleFrame, givenInTurn, dueInTurn, hraw, hcascade, hengine, submits_eq]
    · simp [handleFrame, givenInTurn, dueInTurn, hraw, hcascade]
  · simp [handleFrame, givenInTurn, hraw]

/-- What a frame changes of the stage. -/
theorem handleFrame_stage (a : AiStage) (frame : Frame) :
    (a.handleFrame frame).1.givenInTurn = a.givenInTurn ∧
      (a.handleFrame frame).1.cascade = a.cascade ∧
      (a.handleFrame frame).1.dueInTurn =
        if isRaw frame then a.dueInTurn - 1 else a.dueInTurn := by
  have hsubmit : ∀ frame, (a.submitAsync frame).givenInTurn = a.givenInTurn := by
    intro frame
    funext frame'
    simp [givenInTurn, cascadeResult]
  rcases eq_or_ne (isRaw frame) true with hraw | hraw
  · by_cases hcascade : a.cascade = []
    · cases hengine : a.engine <;>
        simp [handleFrame, dueInTurn, hraw, hcascade, hengine, hsubmit, due_submitAsync]
    · simp [handleFrame, dueInTurn, hraw, hcascade]
  · simp [handleFrame, hraw]

theorem handleInTurn_eq (a : AiStage) (frames : List Frame) :
    (a.handleInTurn frames).2 =
      record a.givenInTurn (fun frame => isRaw frame && !a.cascade.isEmpty) frames
        (countdown isRaw a.dueInTurn frames) := by
  induction frames generalizing a with
  | nil => rfl
  | cons frame frames ih =>
      obtain ⟨hgiven, hcascade, hdue⟩ := handleFrame_stage a frame
      have hrest := ih (a.handleFrame frame).1
      rw [hgiven, hcascade, hdue] at hrest
      simp only [handleInTurn, hrest, handleFrame_handled, countdown_cons]
      split <;> simp [record, *]

theorem submitBatch_eq (a : AiStage) (frames : List Frame) :
    (a.submitBatch frames).2 = countdown isPicture a.due frames := by
  induction frames generalizing a with
  | nil => rfl
  | cons frame frames ih =>
      rw [submitBatch, countdown_cons]
      by_cases h : isPicture frame = true
      · rw [if_pos h, if_pos h]
        simp only [ih, due_submitAsync, submits_eq]
      · rw [if_neg h, if_neg h]
        simp only [ih]

theorem submitBatch_given (a : AiStage) (frames : List Frame) :
    (a.submitBatch frames).1.given = a.given := by
  induction frames generalizing a with
  | nil => rfl
  | cons frame frames ih =>
      rw [submitBatch]
      split
      · exact (ih _).trans (submitAsync_given a frame)
      · exact ih a

theorem processBatch_eq (a : AiStage) (frames : List Frame) :
    (a.processBatch frames).2 =
      record (fun _ => if a.engine.isNone then none else a.given) (fun _ => false) frames
        (countdown isPicture a.dueInBatch frames) := by
  rw [processBatch]
  split
  · next hempty =>
      rw [List.isEmpty_iff] at hempty
      rw [hempty]
      rfl
  · split
    · next hnone =>
        rw [dueInBatch, if_pos hnone, countdown_zero, record_unmarked]
    · next hsome =>
        simp only [dueInBatch, hsome, submitBatch_eq, submitBatch_given, record]
        rfl

/-! ### Agreement -/

/-- What the agreement says of the frames, one by one, and of the marks. -/
theorem pathsAgree_iff_forall (a : AiStage) (frames : List Frame) :
    PathsAgree a frames ↔
      (∀ frame ∈ frames, (isRaw frame && !a.cascade.isEmpty) = false) ∧
      countdown isRaw a.dueInTurn frames = countdown isPicture a.dueInBatch frames ∧
      (∀ frame ∈ frames.filter isRaw,
        a.givenInTurn frame = if a.engine.isNone then none else a.given) ∧
      ∀ frame ∈ frames, isRaw frame = false →
        (if a.engine.isNone then none else a.given) = none := by
  have hturn := length_countdown isRaw a.dueInTurn frames
  have hbatch := length_countdown isPicture a.dueInBatch frames
  have hforwarded : (a.handleInTurn frames).2.map (·.frame) =
      (a.processBatch frames).2.map (·.frame) := by
    rw [handleInTurn_eq, processBatch_eq, record_map _ id hturn fun _ _ => rfl,
      record_map _ id hbatch fun _ _ => rfl]
  have hmodel : (a.handleInTurn frames).2.map (·.cascaded) =
      (a.processBatch frames).2.map (·.cascaded) ↔
        ∀ frame ∈ frames, (isRaw frame && !a.cascade.isEmpty) = false := by
    rw [handleInTurn_eq, processBatch_eq,
      record_map _ (fun frame => isRaw frame && !a.cascade.isEmpty) hturn fun _ _ => rfl,
      record_map _ (fun _ => false) hbatch fun _ _ => rfl, List.map_inj_left]
  have hsubmitted : (a.handleInTurn frames).2.map (·.submitted) =
      (a.processBatch frames).2.map (·.submitted) ↔
        countdown isRaw a.dueInTurn frames = countdown isPicture a.dueInBatch frames := by
    rw [handleInTurn_eq, processBatch_eq, record_submitted hturn, record_submitted hbatch]
  have hanalysis : ((a.handleInTurn frames).2.filter (isRaw ·.frame)).map (·.given) =
      ((a.processBatch frames).2.filter (isRaw ·.frame)).map (·.given) ↔
        ∀ frame ∈ frames.filter isRaw,
          a.givenInTurn frame = if a.engine.isNone then none else a.given := by
    rw [handleInTurn_eq, processBatch_eq, record_raw_given hturn, record_raw_given hbatch,
      List.map_inj_left]
  have hencoded : (∀ h ∈ (a.handleInTurn frames).2 ++ (a.processBatch frames).2,
      isRaw h.frame = false → h.given = none) ↔
        ∀ frame ∈ frames, isRaw frame = false →
          (if a.engine.isNone then none else a.given) = none := by
    -- in turn no encoded frame is given anything
    have hnone : ∀ frame ∈ frames, isRaw frame = false → a.givenInTurn frame = none := by
      intro frame _ hraw
      simp [givenInTurn, hraw]
    rw [List.forall_mem_append, handleInTurn_eq, processBatch_eq, encoded_record hturn,
      encoded_record hbatch]
    exact and_iff_right hnone
  exact ⟨fun h => ⟨hmodel.mp h.model, hsubmitted.mp h.submitted, hanalysis.mp h.analysis,
      hencoded.mp h.encoded⟩,
    fun ⟨h₁, h₂, h₃, h₄⟩ => ⟨hforwarded, hmodel.mpr h₁, hsubmitted.mpr h₂, hanalysis.mpr h₃,
      hencoded.mpr h₄⟩⟩

/-- Where there is no raw frame for a cascade, the frames are counted alike or not at all. -/
theorem countdown_eq_iff_countedAlike {a : AiStage} {frames : List Frame}
    (h : a.cascade = [] ∨ ∀ frame ∈ frames, isRaw frame = false) :
    countdown isRaw a.dueInTurn frames = countdown isPicture a.dueInBatch frames ↔
      a.engine.isNone = true ∨ a.CountedAlike frames := by
  have hpicture : ∀ frame, isPicture frame = true → isRaw frame = true := by
    intro frame hframe
    rw [isPicture, Bool.and_eq_true] at hframe
    exact hframe.1
  by_cases hengine : a.engine.isNone = true
  · refine iff_of_true ?_ (.inl hengine)
    simp [dueInTurn, dueInBatch, hengine, countdown_zero]
  rw [or_iff_right hengine, dueInBatch, if_neg hengine, dueInTurn]
  have hcounted : countdown isRaw a.due frames = countdown isPicture a.due frames ↔
      a.CountedAlike frames := by
    rw [countdown_eq_iff hpicture]
    refine imp_congr_right fun _ => forall₂_congr fun frame hframe => ?_
    have hraw := (List.mem_filter.mp (List.mem_of_mem_take hframe)).2
    rw [isPicture, hraw, Bool.true_and]
  rcases h with hcascade | hnone
  · rw [if_neg (by simp [hengine, hcascade]), hcounted]
  · -- with no raw frame at all nothing is counted
    have hraws : frames.filter isRaw = [] := by
      simpa [List.filter_eq_nil_iff] using hnone
    have hzero : countdown isRaw 0 frames = countdown isRaw a.due frames := by
      rw [countdown_zero]
      rcases Nat.eq_zero_or_pos a.due with hdue | hdue
      · rw [hdue, countdown_zero]
      · rw [countdown_eq_of_length_lt (by simpa [hraws] using hdue)]
    split
    · rw [hzero, hcounted]
    · exact hcounted

/-- **The two paths agree exactly** when there is no raw frame for a cascade, no encoded frame for
the engine's last result, and each raw frame up to the one left to the worker has its picture. -/
theorem pathsAgree_iff (a : AiStage) (frames : List Frame) :
    PathsAgree a frames ↔
      (a.cascade = [] ∨ ∀ frame ∈ frames, isRaw frame = false) ∧
      (a.engine.isNone = true ∨ a.lastResult.hasResult = false ∨
        ∀ frame ∈ frames, isRaw frame = true) ∧
      (a.engine.isNone = true ∨ a.CountedAlike frames) := by
  have hcascade : (∀ frame ∈ frames, (isRaw frame && !a.cascade.isEmpty) = false) ↔
      a.cascade = [] ∨ ∀ frame ∈ frames, isRaw frame = false := by
    by_cases h : a.cascade = [] <;> simp [h]
  have hencoded : (∀ frame ∈ frames, isRaw frame = false →
      (if a.engine.isNone then none else a.given) = none) ↔
        a.engine.isNone = true ∨ a.lastResult.hasResult = false ∨
          ∀ frame ∈ frames, isRaw frame = true := by
    by_cases hengine : a.engine.isNone = true
    · simp [hengine]
    · by_cases hresult : a.lastResult.hasResult = true
      · simp [hengine, hresult, given]
      · simp [hresult, given]
  rw [pathsAgree_iff_forall, hcascade, hencoded]
  constructor
  · rintro ⟨h₁, h₂, -, h₄⟩
    exact ⟨h₁, h₄, (countdown_eq_iff_countedAlike h₁).mp h₂⟩
  · rintro ⟨h₁, h₂, h₃⟩
    refine ⟨h₁, (countdown_eq_iff_countedAlike h₁).mpr h₃, fun frame hframe => ?_, h₂⟩
    obtain ⟨hmem, hraw⟩ := List.mem_filter.mp hframe
    rcases h₁ with hnone | hno
    · simp [givenInTurn, hraw, hnone]
    · rw [hno frame hmem] at hraw
      cases hraw

/-- A stage with a cascade and no engine. -/
def cascadeAlone : AiStage where
  cascade := [⟨{ name := "vehicles", modelName := "yolov8n" }, ⟨fun _ _ => some []⟩⟩]

/-- A decoded picture. -/
def decodedPicture : Frame := { origin := 0, data := some (blackSquare 2 (by decide)) }

/-- `ProcessFrame` runs the cascade on it, `ProcessBatch` passes it on. -/
theorem not_pathsAgree : ¬ PathsAgree cascadeAlone [decodedPicture] := by
  intro h
  have hmodel := h.model
  rw [handleInTurn_eq, processBatch_eq] at hmodel
  exact absurd hmodel (by decide)

end AiStage

end LoongNvr.Pipeline
