import LoongNvr.AiEngine.ModelManager
import LoongNvr.Pipeline.Stages

/-!
# Pipeline — Orchestrator

`ChannelOrchestrator::BuildPipeline`, and the start of the pipeline it builds.

The parameters of a stage travel as a JSON text in the source; here they are the values read back
from it.

* `buildPipeline_some`: the stages of a pipeline are those of `ChannelOrchestrator.stages`.
* `launch_station`: a station of a running pipeline is the launched stage of its place.
-/

namespace LoongNvr.Pipeline
open LoongNvr.Core LoongNvr.AiEngine LoongNvr.VideoInput LoongNvr.Rules Support YoloAdapter

/-- A channel, as far as its pipeline is concerned. -/
structure ChannelConfig where
  id : ℤ := -1
  rtspUrl : String
  codec : CodecType := .unknown
  width : ℤ := 0
  height : ℤ := 0
  aiModelName : String := ""
  aiBackend : String := ""
  confidenceThreshold : ℚ := 1 / 2

/-! ### Resources -/

/-- The queue capacities of a channel's pipeline. -/
structure ChannelResources where
  inputQueueCapacity : ℕ := 128
  decodeQueueCapacity : ℕ := 64
  aiQueueCapacity : ℕ := 32
  overlayQueueCapacity : ℕ := 32
  outputQueueCapacity : ℕ := 64
  deriving DecidableEq, Repr

/-- `kMaxChannels` -/
def kMaxChannels : ℕ := 64

/-- `QueueScaleFactor`: full capacity up to 8 channels, then less down to a quarter. -/
def queueScaleFactor (activeChannels : ℕ) : ℚ :=
  if activeChannels ≤ 8 then 1
  else if activeChannels ≥ kMaxChannels then 1 / 4
  else 1 - 3 / 4 * ((activeChannels - 8) / (kMaxChannels - 8))

/-- `AllocateResources` -/
def allocateResources (activeChannels : ℕ) : ChannelResources :=
  let scaled (capacity : ℚ) : ℕ := (truncate (capacity * queueScaleFactor activeChannels)).toNat
  { inputQueueCapacity := max 16 (scaled 128)
    decodeQueueCapacity := max 8 (scaled 64)
    aiQueueCapacity := max 4 (scaled 32)
    overlayQueueCapacity := max 4 (scaled 32)
    outputQueueCapacity := max 8 (scaled 64) }

/-! ### Stages with their parameters -/

/-- The parameters of a stage, with the values taken for those that are missing. -/
structure StageParams where
  rtspUrl : String := ""
  channelId : ℤ := -1
  codec : CodecType := .unknown
  width : ℤ := 0
  height : ℤ := 0
  confidenceThreshold : ℚ := 1 / 2
  skipFrames : ℤ := 0

/-- A stage added to a pipeline. -/
structure StageEntry where
  stage : Stage
  queueCapacity : ℕ
  params : StageParams

/-- `Initialize` of a stage; `none` where it returns false. -/
def Stage.initializeStage (params : StageParams) (opens : Bool) : Stage → Option Stage
  | .input s =>
      if params.rtspUrl.isEmpty then none else some (.input { s with channelId := params.channelId })
  | .decode d =>
      let d : DecodeStage :=
        { d with hintCodec := params.codec, hintWidth := params.width, hintHeight := params.height }
      if d.hintCodec ≠ .unknown ∧ d.hintWidth > 0 ∧ d.hintHeight > 0 then
        (DecodeStage.initDecoder d.hintCodec opens).map fun decoder =>
          .decode { d with decoder := some decoder }
      else some (.decode d)
  | .ai a =>
      some (.ai { a with
        confidenceThreshold := params.confidenceThreshold
        skipFrames := max 0 params.skipFrames })
  | .rule => some .rule
  | .overlay => some .overlay
  | .output o => some (.output { o with channelId := params.channelId })

/-- `OnPipelineStart` of a stage: the input stage starts pulling. -/
def Stage.onPipelineStart (stream : Option VideoStream) : Stage → Stage
  | .input s => .input (InputStage.startPulling s.channelId stream)
  | stage => stage

/-- The station of a stage that is initialized and started. -/
def StageEntry.launch (opens : Bool) (stream : Option VideoStream) (entry : StageEntry) :
    Option (Station Stage Frame StageQueue) :=
  (entry.stage.initializeStage entry.params opens).map fun stage =>
    { state := stage.onPipelineStart stream, queue := { capacity := entry.queueCapacity } }

/-- `ChannelPipeline::Initialize` and `Start`: the running pipeline, none where a stage fails. -/
def launch (entries : List StageEntry) (opens : Bool) (stream : Option VideoStream)
    (engine : RuleEngine) : Option PipelineState :=
  (entries.mapM (StageEntry.launch opens stream)).map fun stations =>
    { stations := stations, shared := engine }

/-! ### Building -/

/-- What creating engines needs from outside. -/
structure EngineLibraries where
  openCv : OpenCv
  sortDetections : DetectionSorter
  load : BackendLoader
  /-- The engines over plate and face adapters. -/
  otherDetector : AdapterClass → LoadedBackend → Detector

/-- What an engine answers. -/
def EngineLibraries.detector (lib : EngineLibraries) : Engine → Detector
  | .yolo engine => engine.detector lib.openCv lib.sortDetections
  | .other adapter loaded => lib.otherDetector adapter loaded

/-- The orchestrator's state. -/
structure ChannelOrchestrator where
  modelManager : Option ModelManager := none
  hasRuleEngine : Bool := false
  cascadeEnabled : Bool := false
  cascadeSteps : List (String × String) := []
  channelResources : List (ℤ × ChannelResources) := []

namespace ChannelOrchestrator

/-- One turn of the loop over the cascade's steps; a model without an engine is skipped. -/
def addCascadeStep (lib : EngineLibraries) (config : ChannelConfig)
    (acc : ModelManager × List StepEntry) (step : String × String) :
    ModelManager × List StepEntry :=
  match acc.1.createEngine lib.load step.1 config.aiBackend with
  | (m, none) => (m, acc.2)
  | (m, some engine) =>
      (m, acc.2 ++
        [{ config :=
             { name := step.1
               modelName := step.1
               mode := if step.2 = "parallel" then .parallel else .crop
               confidenceThreshold := config.confidenceThreshold }
           engine := lib.detector engine }])

/-- The analysis stage of a channel, and the models after its engines are created. -/
def makeAiStage (lib : EngineLibraries) (orc : ChannelOrchestrator) (config : ChannelConfig) :
    Option ModelManager × AiStage :=
  match orc.modelManager with
  | none => (none, {})
  | some m =>
      if config.aiModelName.isEmpty then (some m, {})
      else
        match m.createEngine lib.load config.aiModelName config.aiBackend with
        | (m, none) => (some m, {}) -- the model is not available
        | (m, some engine) =>
            let detector := lib.detector engine
            if orc.cascadeEnabled && !orc.cascadeSteps.isEmpty then
              let primary : StepEntry :=
                { config :=
                    { name := "primary"
                      modelName := config.aiModelName
                      mode := .primary
                      confidenceThreshold := config.confidenceThreshold }
                  engine := detector }
              let (m, steps) := orc.cascadeSteps.foldl (addCascadeStep lib config) (m, [primary])
              (some m,
                { engine := some detector, cascade := if steps.length > 1 then steps else [] })
            else (some m, { engine := some detector })

/-- The stages after the analysis; the rule stage is there where a rule engine is set. -/
def laterStages (orc : ChannelOrchestrator) (config : ChannelConfig) (res : ChannelResources) :
    List StageEntry :=
  (if orc.hasRuleEngine then
    [{ stage := .rule, queueCapacity := res.aiQueueCapacity, params := { channelId := config.id } }]
  else []) ++
  [{ stage := .overlay
     queueCapacity := res.overlayQueueCapacity
     params := { channelId := config.id } },
   { stage := .output { channelId := -1 }
     queueCapacity := res.outputQueueCapacity
     params :=
       { codec := config.codec, width := config.width, height := config.height,
         channelId := config.id } }]

/-- The stages `BuildPipeline` adds. -/
def stages (orc : ChannelOrchestrator) (config : ChannelConfig) (res : ChannelResources)
    (aiStage : AiStage) : List StageEntry :=
  { stage := .input { channelId := -1 }
    queueCapacity := res.inputQueueCapacity
    params := { rtspUrl := config.rtspUrl, channelId := config.id } } ::
  { stage := .decode { hintCodec := .unknown, hintWidth := 0, hintHeight := 0 }
    queueCapacity := res.decodeQueueCapacity
    params := { codec := config.codec, width := config.width, height := config.height } } ::
  { stage := .ai aiStage
    queueCapacity := res.aiQueueCapacity
    params := { confidenceThreshold := config.confidenceThreshold } } ::
  orc.laterStages config res

theorem mem_laterStages {orc : ChannelOrchestrator} {config : ChannelConfig}
    {res : ChannelResources} {entry : StageEntry} (h : entry ∈ orc.laterStages config res) :
    entry.stage = .rule ∨ entry.stage = .overlay ∨ ∃ o, entry.stage = .output o := by
  rcases List.mem_append.mp h with h | h
  · split at h
    · rw [List.mem_singleton.mp h]
      exact .inl rfl
    · cases h
  · rcases List.mem_pair.mp h with rfl | rfl
    · exact .inr (.inl rfl)
    · exact .inr (.inr ⟨_, rfl⟩)

/-- The analysis stage among them. -/
theorem eq_aiStage {orc : ChannelOrchestrator} {config : ChannelConfig} {res : ChannelResources}
    {aiStage a : AiStage} {entry : StageEntry} (h : entry ∈ orc.stages config res aiStage)
    (ha : entry.stage = .ai a) : a = aiStage := by
  rcases List.mem_cons.mp h with rfl | h
  · cases ha
  · rcases List.mem_cons.mp h with rfl | h
    · cases ha
    · rcases List.mem_cons.mp h with rfl | h
      · cases ha
        rfl
      · rcases mem_laterStages h with hkind | hkind | ⟨o, hkind⟩ <;> cases hkind.symm.trans ha

/-- `BuildPipeline`; no stages where there are too many channels. -/
def buildPipeline (lib : EngineLibraries) (orc : ChannelOrchestrator) (config : ChannelConfig) :
    ChannelOrchestrator × Option (List StageEntry) :=
  let active := orc.channelResources.length
  if active ≥ kMaxChannels then (orc, none)
  else
    let res := allocateResources active
    let (manager, aiStage) := orc.makeAiStage lib config
    ({ orc with
        modelManager := manager
        channelResources := (orc.channelResources.filter fun p => p.1 ≠ config.id) ++
          [(config.id, res)] },
      some (orc.stages config res aiStage))

/-- The stages of a pipeline that is built. -/
theorem buildPipeline_some {lib : EngineLibraries} {orc : ChannelOrchestrator}
    {config : ChannelConfig} {entries : List StageEntry}
    (h : (orc.buildPipeline lib config).2 = some entries) :
    ∃ res aiStage, entries = orc.stages config res aiStage ∧ aiStage.pendingFrame = none := by
  have hpending : (orc.makeAiStage lib config).2.pendingFrame = none := by
    unfold makeAiStage
    split
    · rfl
    · split
      · rfl
      · split
        · rfl
        · dsimp only
          split <;> rfl
  unfold buildPipeline at h
  dsimp only at h
  split at h
  · cases h
  · exact ⟨_, _, (Option.some.inj h).symm, hpending⟩

end ChannelOrchestrator

/-! ### Launching -/

theorem getElem?_mapM {α β : Type*} {f : α → Option β} {l : List α} {l' : List β}
    (h : l.mapM f = some l') (i : ℕ) : l'[i]? = (l[i]?).bind f := by
  induction l generalizing l' i with
  | nil =>
      cases h
      rfl
  | cons a l ih =>
      rw [List.mapM_cons] at h
      obtain ⟨b, hb, h⟩ := Option.bind_eq_some_iff.mp h
      obtain ⟨bs, hbs, h⟩ := Option.bind_eq_some_iff.mp h
      cases h
      cases i with
      | zero => exact hb.symm
      | succ i => exact ih hbs i

/-- **A station** of a running pipeline: nothing waits there yet. -/
theorem launch_station {entries : List StageEntry} {opens : Bool} {stream : Option VideoStream}
    {engine : RuleEngine} {s : PipelineState} (h : launch entries opens stream engine = some s)
    {i : ℕ} {t : Station Stage Frame StageQueue} (ht : s.stations[i]? = some t) :
    ∃ entry, entries[i]? = some entry ∧ entry.launch opens stream = some t ∧
      t.queue.queue = [] ∧ t.outgoing = [] := by
  obtain ⟨stations, hstations, rfl⟩ := Option.map_eq_some_iff.mp h
  rw [getElem?_mapM hstations] at ht
  obtain ⟨entry, hentry, hlaunch⟩ := Option.bind_eq_some_iff.mp ht
  refine ⟨entry, hentry, hlaunch, ?_⟩
  obtain ⟨stage, -, rfl⟩ := Option.map_eq_some_iff.mp hlaunch
  exact ⟨rfl, rfl⟩

/-- A launched analysis stage has no more frames pending than before. -/
theorem launch_ai {entry : StageEntry} {opens : Bool} {stream : Option VideoStream}
    {t : Station Stage Frame StageQueue} (h : entry.launch opens stream = some t) {a : AiStage}
    (ha : t.state = .ai a) : ∃ b, entry.stage = .ai b ∧ a.pendingFrame = b.pendingFrame := by
  obtain ⟨stage, hstage, rfl⟩ := Option.map_eq_some_iff.mp h
  cases hkind : entry.stage with
  | ai b =>
      rw [hkind] at hstage
      cases hstage
      cases ha
      exact ⟨b, rfl, rfl⟩
  | input s =>
      rw [hkind] at hstage
      dsimp only [Stage.initializeStage] at hstage
      split at hstage <;> cases hstage
      cases ha
  | decode d =>
      rw [hkind] at hstage
      dsimp only [Stage.initializeStage] at hstage
      split at hstage
      · obtain ⟨decoder, -, rfl⟩ := Option.map_eq_some_iff.mp hstage
        cases ha
      · cases hstage
        cases ha
  | rule =>
      rw [hkind] at hstage
      cases hstage
      cases ha
  | overlay =>
      rw [hkind] at hstage
      cases hstage
      cases ha
  | output o =>
      rw [hkind] at hstage
      cases hstage
      cases ha

end LoongNvr.Pipeline
