import LoongNvr.Pipeline.AiStage
import LoongNvr.Support.Runs

/-!
# Pipeline — AsyncInference

`AiStage` with an engine and no cascade: the pipeline's thread in `ProcessFrame` and the inference
worker, one critical section at a time in any order.  How an inference turns out is an input.

* `AsyncStage.step`: one turn of either thread.
* `processFrame_alone`, `inferWorker_alone`: a thread that takes its turns in a row does what
  `AiStage.processFrame` and `AiStage.inferWorker` say.
* `Standing.step`: as long as no inference finds nothing after one that found something, the stored
  result is that of the last inference that succeeded.
* `current_of_everyStep`: in such a run every frame is given that result.
* `stale_after`: after any other inference a frame is given an older one.
-/

namespace LoongNvr.Pipeline
open LoongNvr.Core LoongNvr.AiEngine Support

/-- Where the pipeline's thread is: outside `ProcessFrame`, before it counts the frame, or before it
leaves the frame to the worker. -/
inductive Caller
  | idle
  | counting (frame : Frame)
  | submitting (frame : Frame)

/-- Where the inference worker is: waiting for a frame, in `Infer`, or before it is idle again. -/
inductive Worker
  | waiting
  | inferring (frame : Frame)
  | resting

/-- A frame that was given the last result or nothing, and, as history, what the last inference that
had succeeded by then found. -/
structure Analysed where
  frame : Frame
  given : Option AnalysisResult
  latest : Option (List Detection)

/-- The two threads, what the last inference that succeeded found, and the frames analysed. -/
structure AsyncStage where
  stage : AiStage
  caller : Caller := .idle
  worker : Worker := .waiting
  latest : Option (List Detection) := none
  analysed : List Analysed := []

/-- A frame arrives and is given the last result; it is counted, and the worker claimed if it is the
frame's turn; it is left to the worker; the worker takes it; `Infer` returns and what it found is
stored; the worker is idle. -/
inductive AsyncStep
  | frame (frame : Frame)
  | count
  | submit
  | take
  | finish (outcome : Option (List Detection))
  | rest

/-- What `ProcessFrame` gives a frame. -/
def AiStage.given (a : AiStage) : Option AnalysisResult :=
  if a.lastResult.hasResult then some a.lastResult else none

namespace AsyncStage

def processFrame (frame : Frame) (s : AsyncStage) : AsyncStage :=
  match s.caller, frame.type with
  | .idle, .raw =>
      { s with
        caller := .counting (s.stage.withLastResult frame)
        analysed := s.analysed ++ [⟨s.stage.withLastResult frame, s.stage.given, s.latest⟩] }
  | _, _ => s -- a frame that is not raw is passed on

def count (s : AsyncStage) : AsyncStage :=
  match s.caller with
  | .counting frame =>
      let counted := { s.stage with frameCounter := s.stage.frameCounter + 1 }
      if s.stage.submits then
        { s with stage := { counted with inferRunning := true }, caller := .submitting frame }
      else { s with stage := counted, caller := .idle }
  | _ => s

def submit (s : AsyncStage) : AsyncStage :=
  match s.caller with
  | .submitting frame =>
      { s with stage := { s.stage with pendingFrame := some frame }, caller := .idle }
  | _ => s

def take (s : AsyncStage) : AsyncStage :=
  match s.worker, s.stage.pendingFrame with
  | .waiting, some frame =>
      { s with stage := { s.stage with pendingFrame := none }, worker := .inferring frame }
  | _, _ => s

/-- `if (ok && !dets.empty())` the result is stored. -/
def finish (outcome : Option (List Detection)) (s : AsyncStage) : AsyncStage :=
  match s.worker, outcome with
  | .inferring _, none => { s with worker := .resting }
  | .inferring _, some [] => { s with worker := .resting, latest := some [] }
  | .inferring _, some (d :: dets) =>
      { s with
        stage := { s.stage with lastResult := { hasResult := true, detections := d :: dets } }
        worker := .resting
        latest := some (d :: dets) }
  | _, _ => s

def rest (s : AsyncStage) : AsyncStage :=
  match s.worker with
  | .resting => { s with stage := { s.stage with inferRunning := false }, worker := .waiting }
  | _ => s

def step (s : AsyncStage) : AsyncStep → AsyncStage
  | .frame frame => s.processFrame frame
  | .count => s.count
  | .submit => s.submit
  | .take => s.take
  | .finish outcome => s.finish outcome
  | .rest => s.rest

/-- A stage that has analysed nothing; its engine is there, and what it finds is in the steps. -/
def start (engine : Detector) (confidenceThreshold : ℚ) (skipFrames : ℤ) : AsyncStage where
  stage := { engine := some engine, confidenceThreshold, skipFrames }

/-! ### Alone -/

/-- The pipeline's thread alone. -/
theorem processFrame_alone {a : AiStage} {frame : Frame} (hraw : frame.type = .raw)
    (hengine : a.engine.isSome) (hcascade : a.cascade = []) :
    let s := [AsyncStep.frame frame, .count, .submit].foldl step { stage := a }
    s.stage = (a.processFrame frame).1 ∧ s.caller = .idle ∧
      s.analysed.map (·.frame) = [(a.processFrame frame).2.1] := by
  have hprocess : a.processFrame frame =
      (a.submitAsync (a.withLastResult frame), a.withLastResult frame, []) := by
    simp [AiStage.processFrame, hraw, Option.isNone_eq_false_iff.mpr hengine, hcascade]
  rw [hprocess]
  by_cases hsubmits : a.submits = true
  · simp [step, processFrame, hraw, count, hsubmits, submit, AiStage.submitAsync]
  · simp [step, processFrame, hraw, count, hsubmits, submit, AiStage.submitAsync]

/-- The worker alone. -/
theorem inferWorker_alone {a : AiStage} {frame : Frame} {image : Image} {engine : Detector}
    {drawn : Option Image} {outcome : Option (List Detection)}
    (hpending : a.pendingFrame = some frame) (hdata : frame.data = some image)
    (hengine : a.engine = some engine)
    (houtcome : engine.infer (drawn.getD image) a.confidenceThreshold = outcome) :
    let s := [AsyncStep.take, .finish outcome, .rest].foldl step { stage := a }
    s.stage = (a.inferWorker drawn).1 ∧ s.worker = .waiting := by
  have hresult : a.inferResult engine frame drawn = outcome := by
    rw [AiStage.inferResult, hdata, Option.bind_some, houtcome]
  cases outcome with
  | none => simp [step, take, hpending, finish, rest, AiStage.inferWorker, hengine, hresult]
  | some dets =>
      cases dets with
      | nil => simp [step, take, hpending, finish, rest, AiStage.inferWorker, hengine, hresult]
      | cons d dets =>
          simp [step, take, hpending, finish, rest, AiStage.inferWorker, hengine, hresult]

/-! ### What a frame is given -/

/-- The result of an inference that found this; nothing found may be told by no result. -/
def IsResult : Option (List Detection) → Option AnalysisResult → Prop
  | some (d :: dets), given => given = some { hasResult := true, detections := d :: dets }
  | none, given | some [], given => ∀ result ∈ given, result.detections = []

/-- Every frame is given the result of the last inference that had succeeded. -/
def Current (s : AsyncStage) : Prop := ∀ a ∈ s.analysed, IsResult a.latest a.given

/-- An inference that finds nothing does not follow one whose result is stored. -/
def Overwrites (s : AsyncStage) : AsyncStep → Prop
  | .finish (some []) => s.stage.lastResult.hasResult = false
  | _ => True

/-- The stored result is that of the last inference that succeeded, and so it was for every frame. -/
structure Standing (s : AsyncStage) : Prop where
  current : Current s
  stored : IsResult s.latest s.stage.given
  found : s.stage.lastResult.hasResult = true → s.stage.lastResult.detections ≠ []

variable {s : AsyncStage}

/-- A step that changes neither the stored result nor what has been given. -/
theorem Standing.congr (h : Standing s) {s' : AsyncStage}
    (hresult : s'.stage.lastResult = s.stage.lastResult) (hlatest : s'.latest = s.latest)
    (hanalysed : s'.analysed = s.analysed) : Standing s' where
  current := by
    rw [Current, hanalysed]
    exact h.current
  stored := by
    rw [hlatest, AiStage.given, hresult]
    exact h.stored
  found := by
    rw [hresult]
    exact h.found

theorem Standing.processFrame (h : Standing s) (frame : Frame) : Standing (s.processFrame frame) := by
  unfold AsyncStage.processFrame
  split
  · refine { h with current := fun a ha => ?_ }
    rcases List.mem_append.mp ha with hold | hnew
    · exact h.current a hold
    · rw [List.mem_singleton.mp hnew]
      exact h.stored
  · exact h

theorem Standing.count (h : Standing s) : Standing s.count := by
  unfold AsyncStage.count
  split
  · dsimp only
    split
    · exact h.congr rfl rfl rfl
    · exact h.congr rfl rfl rfl
  · exact h

theorem Standing.submit (h : Standing s) : Standing s.submit := by
  unfold AsyncStage.submit
  split
  · exact h.congr rfl rfl rfl
  · exact h

theorem Standing.take (h : Standing s) : Standing s.take := by
  unfold AsyncStage.take
  split
  · exact h.congr rfl rfl rfl
  · exact h

theorem Standing.rest (h : Standing s) : Standing s.rest := by
  unfold AsyncStage.rest
  split
  · exact h.congr rfl rfl rfl
  · exact h

theorem Standing.finish (h : Standing s) {outcome : Option (List Detection)}
    (hover : Overwrites s (.finish outcome)) : Standing (s.finish outcome) := by
  unfold AsyncStage.finish
  split
  · exact h.congr rfl rfl rfl
  · have hnone : s.stage.given = none := by rw [AiStage.given, hover]; rfl
    refine { h with stored := fun result hresult => ?_ }
    exact absurd (hnone.symm.trans hresult) nofun
  · exact { current := h.current, stored := rfl, found := fun _ => List.cons_ne_nil _ _ }
  · exact h

theorem Standing.step (h : Standing s) (a : AsyncStep) (hover : Overwrites s a) :
    Standing (s.step a) := by
  cases a with
  | frame frame => exact h.processFrame frame
  | count => exact h.count
  | submit => exact h.submit
  | take => exact h.take
  | finish outcome => exact h.finish hover
  | rest => exact h.rest

variable (engine : Detector) (confidenceThreshold : ℚ) (skipFrames : ℤ)

theorem standing_start : Standing (start engine confidenceThreshold skipFrames) where
  current _ h := nomatch h
  stored _ h := nomatch h
  found h := nomatch h

/-- **Every frame is given the result of the last inference that had succeeded, in every state of a
run in which no inference finds nothing while a result is stored.** -/
theorem current_of_everyStep (steps : List AsyncStep)
    (h : EveryStep step Overwrites (start engine confidenceThreshold skipFrames) steps) :
    Along step Current (start engine confidenceThreshold skipFrames) steps :=
  have hstep : ∀ s a, Standing s → Overwrites s a → Standing (step s a) :=
    fun _ a hs hover => hs.step a hover
  (along_of_everyStep hstep (standing_start engine confidenceThreshold skipFrames) h).mono
    fun _ hs => hs.current

/-- An engine whose answers are in the steps. -/
def anyEngine : Detector where
  infer _ _ := none

def car : Detection where
  x1 := 0
  y1 := 0
  x2 := 1
  y2 := 1
  classId := 2
  className := "car"
  confidence := 9 / 10

/-- A raw frame is analysed on its own: it is given the last result and goes to the worker. -/
def analyse (frame : Frame) (outcome : Option (List Detection)) : List AsyncStep :=
  [.frame frame, .count, .submit, .take, .finish outcome, .rest]

/-- Nothing is found at first, then a car; an inference that fails changes nothing. -/
theorem current_thenCar :
    Along step Current (start anyEngine (1 / 2) 0)
      (analyse { origin := 0 } (some []) ++ analyse { origin := 1 } (some [car]) ++
        analyse { origin := 2 } none ++ [.frame { origin := 3 }]) :=
  current_of_everyStep anyEngine (1 / 2) 0 _ (by
    simp [analyse, EveryStep, Overwrites, step, start, AsyncStage.processFrame, AsyncStage.count,
      AsyncStage.submit, AsyncStage.take, AiStage.submits])

/-- Any other inference leaves the older result for the next frame. -/
theorem stale_after (h : Standing s) {frame inferred : Frame} (hworker : s.worker = .inferring inferred)
    (hresult : s.stage.lastResult.hasResult = true) (hcaller : s.caller = .idle)
    (hraw : frame.type = .raw) : ¬ Current ((s.step (.finish (some []))).step (.frame frame)) := by
  intro hcurrent
  have hgiven : s.stage.given = some s.stage.lastResult := if_pos hresult
  have hfinish : s.step (.finish (some [])) = { s with worker := .resting, latest := some [] } := by
    simp [step, finish, hworker]
  rw [hfinish] at hcurrent
  have hstale := hcurrent ⟨s.stage.withLastResult frame, s.stage.given, some []⟩
    (by simp [step, AsyncStage.processFrame, hcaller, hraw])
  exact h.found hresult (hstale _ hgiven)

/-- A car is found, and then nothing: the next frame still has the car. -/
theorem current_refuted :
    ¬ ∀ (engine : Detector) (confidenceThreshold : ℚ) (skipFrames : ℤ) (steps : List AsyncStep),
      Along step Current (start engine confidenceThreshold skipFrames) steps := by
  intro h
  have hlast := (h anyEngine (1 / 2) 0
    (analyse { origin := 0 } (some [car]) ++ analyse { origin := 1 } (some []) ++
      [.frame { origin := 2 }])).last
  have hstale := hlast
    ⟨{ origin := 2, analysis := { hasResult := true, detections := [car] } },
      some { hasResult := true, detections := [car] }, some []⟩
    (by simp [analyse, step, start, AsyncStage.processFrame, AsyncStage.count, AsyncStage.submit,
      AsyncStage.take, AsyncStage.finish, AsyncStage.rest, AiStage.given, AiStage.withLastResult,
      AiStage.submits])
  exact absurd (hstale _ rfl) (by simp)

end AsyncStage

end LoongNvr.Pipeline
