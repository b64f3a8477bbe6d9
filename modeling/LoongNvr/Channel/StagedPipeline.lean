import LoongNvr.Channel.ChannelManager
import LoongNvr.Support.Runs
import Mathlib.Logic.Function.Basic

/-!
# Channel — StagedPipeline

`core::ChannelPipeline` with its stages, their queues and workers.  Of the classes of stages only
`AiStage` is spelled out; the others may do anything in their methods.

The thread that calls `Stop` waits for the workers, and these, the stages' own threads and pushes
from outside come in any order.  `DrainAndStop` waits before it calls `Stop`, where they come as
well.

* `start`: `none` where a worker is replaced that has not been joined; the process terminates.
* `initializeStages_agrees`, `start_agrees`, `stop_agrees`: the state is what the manager's view of a
  pipeline has.
-/

namespace LoongNvr.Channel
open LoongNvr.Core LoongNvr.AiEngine Support
open LoongNvr.Pipeline (AiStage ChannelResources DetectionEvent StageParams)

/-! ### Stages -/

/-- An `AiStage` with its inference thread. -/
structure LiveAiStage extends AiStage where
  inferThread : Bool := false
  shutdownInfer : Bool := false

namespace LiveAiStage

/-- `Initialize` -/
def initializeStage (params : StageParams) (a : LiveAiStage) : LiveAiStage :=
  { a with
    confidenceThreshold := params.confidenceThreshold
    skipFrames := max 0 params.skipFrames }

/-- Is the frame one for the inference thread? -/
def isAsync (a : LiveAiStage) (frame : Frame) : Bool :=
  decide (frame.type = .raw) && a.engine.isSome && a.cascade.isEmpty

/-- `ProcessFrame`; the first frame for the inference thread starts it. -/
def processFrame (a : LiveAiStage) (frame : Frame) : LiveAiStage × Frame × List DetectionEvent :=
  let (stage, result, events) := a.toAiStage.processFrame frame
  ({ a with toAiStage := stage, inferThread := a.inferThread || a.isAsync frame }, result, events)

/-- A turn of the inference thread. -/
def inferWorker (a : LiveAiStage) (drawn : Option Image) : LiveAiStage × List DetectionEvent :=
  if a.inferThread && !a.shutdownInfer then
    let (stage, events) := a.toAiStage.inferWorker drawn
    ({ a with toAiStage := stage }, events)
  else (a, [])

/-- `Shutdown` -/
def shutdown (a : LiveAiStage) : LiveAiStage :=
  { a with shutdownInfer := true, inferThread := false, engine := none, cascade := [] }

/-- It analyses frames: with a cascade, or with an engine and a thread that may run. -/
def Infers (a : LiveAiStage) : Prop :=
  a.cascade ≠ [] ∨ (a.engine.isSome ∧ a.shutdownInfer = false)

/-- After `Shutdown` a frame is passed on as it is. -/
theorem processFrame_shutdown (a : LiveAiStage) (frame : Frame) :
    (a.shutdown.processFrame frame).2 = (frame, []) := by
  simp only [processFrame, AiStage.processFrame]
  split
  · simp [shutdown]
  · rfl

theorem infers_processFrame {a : LiveAiStage} (h : a.Infers) (frame : Frame) :
    (a.processFrame frame).1.Infers := by
  have hstage : (a.toAiStage.processFrame frame).1.engine = a.engine ∧
      (a.toAiStage.processFrame frame).1.cascade = a.cascade := by
    unfold AiStage.processFrame
    split
    · split
      · exact ⟨rfl, rfl⟩
      · split
        · exact ⟨rfl, rfl⟩
        · dsimp only [AiStage.submitAsync]
          split
          · exact ⟨rfl, rfl⟩
          · exact ⟨rfl, rfl⟩
    · exact ⟨rfl, rfl⟩
  dsimp only [processFrame, Infers]
  rw [hstage.1, hstage.2]
  exact h

theorem infers_inferWorker {a : LiveAiStage} (h : a.Infers) (drawn : Option Image) :
    (a.inferWorker drawn).1.Infers := by
  unfold inferWorker
  split
  · have hstage : (a.toAiStage.inferWorker drawn).1.engine = a.engine ∧
        (a.toAiStage.inferWorker drawn).1.cascade = a.cascade := by
      unfold AiStage.inferWorker
      split
      · exact ⟨rfl, rfl⟩
      · split
        · split
          · exact ⟨rfl, rfl⟩
          · exact ⟨rfl, rfl⟩
          · exact ⟨rfl, rfl⟩
        · exact ⟨rfl, rfl⟩
    dsimp only [Infers]
    rw [hstage.1, hstage.2]
    exact h
  · exact h

end LiveAiStage

/-- A stage, which is an `AiStage` with its parameters or of another class. -/
inductive AnyStage (ω : Type)
  | ai (params : StageParams) (a : LiveAiStage)
  | other (s : ω)

/-- The methods of the other classes; `ι` is what comes from outside. -/
structure StageMethods (ω ι : Type) where
  initializeStage : ι → ω → ω × Bool
  processFrame : ι → ω → Frame → ω × List Frame
  /-- What a thread of the stage's own does. -/
  background : ι → ω → ω × List Frame
  onPipelineStart : ι → ω → ω
  onPipelineStop : ω → ω
  shutdown : ω → ω

variable {ω ι : Type}

namespace AnyStage

variable (m : StageMethods ω ι)

def initializeStage (input : ι) : AnyStage ω → AnyStage ω × Bool
  | .ai params a => (.ai params (a.initializeStage params), true)
  | .other s => (.other (m.initializeStage input s).1, (m.initializeStage input s).2)

def onPipelineStart (input : ι) : AnyStage ω → AnyStage ω
  | .ai params a => .ai params a
  | .other s => .other (m.onPipelineStart input s)

def onPipelineStop : AnyStage ω → AnyStage ω
  | .ai params a => .ai params a
  | .other s => .other (m.onPipelineStop s)

def shutdown : AnyStage ω → AnyStage ω
  | .ai params a => .ai params a.shutdown
  | .other s => .other (m.shutdown s)

end AnyStage

/-- What comes from outside, with what has been drawn into the picture the inference sees. -/
structure WorkInput (ι : Type) where
  drawn : Option Image := none
  input : ι

/-- The stages in a row. -/
def stagesLine (m : StageMethods ω ι) :
    Line (AnyStage ω) Unit Frame StageQueue (WorkInput ι) DetectionEvent where
  toQueueOps := StageQueue.ops
  work input _ stage frame :=
    match stage with
    | .ai params a =>
        let (a, result, events) := a.processFrame frame
        { state := .ai params a, shared := (), out := [result], events := events }
    | .other s =>
        let (s, out) := m.processFrame input.input s frame
        { state := .other s, shared := (), out := out }
  tick input _ stage :=
    match stage with
    | .ai params a =>
        let (a, events) := a.inferWorker input.drawn
        { state := .ai params a, shared := (), events := events }
    | .other s =>
        let (s, out) := m.background input.input s
        { state := .other s, shared := (), out := out }

/-! ### The pipeline -/

abbrev StageStation (ω : Type) := Station (AnyStage ω) Frame StageQueue

/-- `stages_` with their queues, the workers that can be joined, `state_` and `running_`, and
whether a call of `Stop` waits for the workers. -/
structure StagedPipeline (ω : Type) where
  line : LineState (AnyStage ω) Unit Frame StageQueue
  workers : ℕ → Bool := fun _ => false
  state : ChannelState := .created
  running : Bool := false
  stopping : Bool := false

namespace StagedPipeline

def setStations (p : StagedPipeline ω) (stations : List (StageStation ω)) : StagedPipeline ω :=
  { p with line := { p.line with stations := stations } }

variable (m : StageMethods ω ι)

/-- The loop of `Initialize`, up to the first stage that fails. -/
def initializeEach (input : ℕ → ι) : List (StageStation ω) → ℕ → List (StageStation ω) × Bool
  | [], _ => ([], true)
  | t :: ts, i =>
      match t.state.initializeStage m (input i) with
      | (s, false) => ({ t with state := s } :: ts, false)
      | (s, true) =>
          let (ts, ok) := initializeEach input ts (i + 1)
          ({ t with state := s } :: ts, ok)

/-- `Initialize` -/
def initializeStages (input : ℕ → ι) (p : StagedPipeline ω) : StagedPipeline ω × Bool :=
  if p.line.stations.isEmpty then (p, false)
  else
    let (stations, ok) := initializeEach m input p.line.stations 0
    ({ p.setStations stations with state := if ok then .configured else .error }, ok)

/-- `std::thread` replaced while it can be joined terminates the process. -/
def start (input : ℕ → ι) (p : StagedPipeline ω) : Option (StagedPipeline ω × Bool) :=
  if p.state ≠ .configured ∧ p.state ≠ .stopped then some (p, false)
  else if (List.range p.line.stations.length).any p.workers then none
  else
    let stations := p.line.stations.mapIdx fun i t =>
      { t with state := t.state.onPipelineStart m (input i) }
    some ({ p.setStations stations with
      running := true
      workers := fun i => decide (i < p.line.stations.length)
      state := .running }, true)

/-- `Stop` up to where it joins the workers. -/
def stop (p : StagedPipeline ω) : StagedPipeline ω :=
  if p.running then
    { p.setStations (p.line.stations.map fun t =>
        { t with state := t.state.onPipelineStop m, queue := t.queue.close }) with
      running := false
      stopping := true }
  else p

/-- The rest of `Stop`, once all workers are joined. -/
def stopped (p : StagedPipeline ω) : StagedPipeline ω :=
  if p.stopping && !(List.range p.line.stations.length).any p.workers then
    { p.setStations (p.line.stations.map fun t => { t with state := t.state.shutdown m }) with
      state := .stopped
      stopping := false }
  else p

/-- The loop of a worker ends: `running_ || !input_queue->Empty()` is false. -/
def exit (i : ℕ) (p : StagedPipeline ω) : StagedPipeline ω :=
  match p.line.stations[i]? with
  | none => p
  | some t =>
      if p.running || !t.queue.queue.isEmpty || !t.outgoing.isEmpty then p
      else { p with workers := Function.update p.workers i false }

/-- A frame pushed into a queue from outside. -/
def push (i : ℕ) (frame : Frame) (p : StagedPipeline ω) : StagedPipeline ω :=
  p.setStations (p.line.stations.modify i fun t => { t with queue := (t.queue.push frame).1 })

/-- Is there a thread to take this step?  Queues are only shut down by `Stop`. -/
def canWork (p : StagedPipeline ω) : LineAction Unit (WorkInput ι) → Bool
  | .tick _ _ => true
  | .take i _ | .pass i => p.workers i
  | .close _ | .outside _ => false

def work (a : LineAction Unit (WorkInput ι)) (p : StagedPipeline ω) : StagedPipeline ω :=
  if p.canWork a then { p with line := (stagesLine m).step p.line a } else p

end StagedPipeline

/-- A call of `Initialize`, `Start`, or of `Stop` or `DrainAndStop`; such a call goes on; a worker's
loop ends; a frame is pushed from outside; a thread of the pipeline does something. -/
inductive PipelineStep (ι : Type)
  | initializeStages (input : ℕ → ι)
  | start (input : ℕ → ι)
  | stop
  | stopped
  | exit (i : ℕ)
  | push (i : ℕ) (frame : Frame)
  | work (a : LineAction Unit (WorkInput ι))

namespace StagedPipeline

variable (m : StageMethods ω ι)

/-- No call begins while another is in `Stop`. -/
def next (p : StagedPipeline ω) : PipelineStep ι → Option (StagedPipeline ω)
  | .initializeStages input => some (if p.stopping then p else (p.initializeStages m input).1)
  | .start input => if p.stopping then some p else (p.start m input).map (·.1)
  | .stop => some (if p.stopping then p else p.stop m)
  | .stopped => some (p.stopped m)
  | .exit i => some (p.exit i)
  | .push i frame => some (p.push i frame)
  | .work a => some (p.work m a)

/-- A step of the process, unless it has terminated. -/
def step (p : Option (StagedPipeline ω)) (a : PipelineStep ι) : Option (StagedPipeline ω) :=
  p.bind (next m · a)

end StagedPipeline

/-! ### Building -/

/-- A stage that is added: an `AiStage` with what it has been given, or one of another class. -/
inductive NewStage (ω : Type)
  | ai (params : StageParams) (engine : Option Detector) (cascade : List StepEntry)
  | other (s : ω)

def NewStage.fresh : NewStage ω → AnyStage ω
  | .ai params engine cascade => .ai params { engine := engine, cascade := cascade }
  | .other s => .other s

/-- `AddStage` for every stage, with the capacity of its queue. -/
def StagedPipeline.build (stages : List (NewStage ω × ℕ)) : StagedPipeline ω where
  line := {
    stations := stages.map fun entry => { state := entry.1.fresh, queue := { capacity := entry.2 } }
    shared := () }

/-! ### The manager's view -/

namespace StagedPipeline

/-- What the manager knows of a pipeline. -/
def view (config : ChannelConfig) (resources : ChannelResources)
    (p : StagedPipeline ω) : ChannelPipeline where
  config := config
  resources := resources
  state := p.state
  running := p.running

variable {m : StageMethods ω ι} {config : ChannelConfig} {resources : ChannelResources}
  {p q : StagedPipeline ω}

theorem initializeStages_agrees (input : ℕ → ι) (hstages : p.line.stations ≠ []) :
    (p.initializeStages m input).1.view config resources =
      (p.view config resources).initializeStages (p.initializeStages m input).2 := by
  have hnonempty : ¬ p.line.stations.isEmpty = true := by simpa using hstages
  unfold initializeStages
  rw [if_neg hnonempty]
  rfl

theorem start_agrees {input : ℕ → ι} {ok : Bool} (h : p.start m input = some (q, ok)) :
    q.view config resources = (p.view config resources).start ok := by
  unfold start at h
  split at h
  · obtain ⟨rfl, rfl⟩ := Prod.mk.inj (Option.some.inj h)
    rw [ChannelPipeline.start, if_neg (by simp)]
  · next hstate =>
      split at h
      · cases h
      · obtain ⟨rfl, rfl⟩ := Prod.mk.inj (Option.some.inj h)
        have hcan : (p.view config resources).canStart = true := by
          simp only [ChannelPipeline.canStart, decide_eq_true_eq]
          by_contra hnot
          push Not at hnot
          exact hstate hnot
        rw [ChannelPipeline.start, if_pos ⟨hcan, rfl⟩]
        rfl

/-- A call of `Stop` that has begun ends once the workers have. -/
theorem stop_agrees (hrunning : p.running = true) (hstopping : q.stopping = true)
    (hstopped : q.running = false) (hjoined : ∀ i < q.line.stations.length, q.workers i = false) :
    (q.stopped m).view config resources = (p.view config resources).stop := by
  have hnone : (List.range q.line.stations.length).any q.workers = false := by
    rw [List.any_eq_false]
    intro i hi
    simp [hjoined i (List.mem_range.mp hi)]
  have hview : (p.view config resources).running = true := hrunning
  simp only [stopped, hstopping, hnone, ChannelPipeline.stop, hview, if_true, Bool.not_false,
    Bool.and_self]
  simp [view, setStations, hstopped]

end StagedPipeline

end LoongNvr.Channel
