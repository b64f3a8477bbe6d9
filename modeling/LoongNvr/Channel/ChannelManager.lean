import LoongNvr.Pipeline.Orchestrator
import LoongNvr.Support.Program
import Mathlib.Data.List.AList
import Mathlib.Tactic.Simps.Basic

/-!
# Channel — ChannelManager

`ChannelManager` with what its operations drive: the pipelines, the streaming services, the
orchestrator's resources and the channel store.

An operation takes and releases `channels_mutex_` several times, and calls the pipeline, the
services and the orchestrator in between.  Each of these is an `Action`, and the operation the
program that goes from one to the next.

* `exec`: what an action does.
* `startChannel`, `stopChannel`, `editChannel`, `deleteChannel`: the operations that other calls can
  run between.
* `Operation.apply`: all operations, each run to its end with no other call about.
-/

namespace LoongNvr.Channel
open LoongNvr.Core Support
open LoongNvr.Pipeline (kMaxChannels ChannelResources allocateResources)

/-! ### Channels and pipelines -/

inductive ChannelState
  | created
  | configured
  | running
  | stopping
  | stopped
  | error
  | destroyed
  deriving DecidableEq, Repr

structure OverlayConfig where
  enabled : Bool := true
  lineThickness : ℤ := 2
  fontScale : ℚ := 1 / 2
  showLabels : Bool := true
  showConfidence : Bool := true
  showTimestamp : Bool := true
  showChannelName : Bool := true
  showTrajectory : Bool := false
  trajectoryMaxPoints : ℤ := 30
  timestampPosition : ℤ := 0
  fillOpacity : ℚ := 8 / 100
  timestampFormat : String := ""

/-- Configuration for a channel. -/
structure ChannelConfig extends Pipeline.ChannelConfig where
  name : String := ""
  framerate : ℤ := 0
  bitrateKbps : ℤ := 4000
  analysisFps : ℤ := 0
  overlay : OverlayConfig := {}
  recordEnabled : Bool := true
  recordPath : String := ""
  latitude : ℚ := 0
  longitude : ℚ := 0

/-- The configuration of the channel `id`. -/
abbrev ConfigOf (id : ℤ) := { config : ChannelConfig // config.id = id }

/-- `config.id = channel_id` -/
def ChannelConfig.withId (config : ChannelConfig) (id : ℤ) : ConfigOf id :=
  ⟨{ config with id := id }, rfl⟩

/-- What the input stage's client says of its stream; zeros where it knows nothing. -/
structure StreamInfo where
  codec : CodecType := .unknown
  width : ℤ := 0
  height : ℤ := 0
  framerate : ℤ := 0

/-- The configuration with what the stream turned out to be. -/
def ConfigOf.detect {id : ℤ} (config : ConfigOf id) (info : StreamInfo) : ConfigOf id :=
  ⟨{ config.1 with
      codec := info.codec
      width := info.width
      height := info.height
      framerate := if info.framerate > 0 then info.framerate else config.1.framerate },
    config.2⟩

/-- A pipeline, as far as the manager is concerned.  It always has stages. -/
structure ChannelPipeline where
  config : ChannelConfig
  resources : ChannelResources
  state : ChannelState := .created
  running : Bool := false

namespace ChannelPipeline

/-- `Initialize`, which sets the state also where the workers run. -/
def initializeStages (p : ChannelPipeline) (succeeds : Bool) : ChannelPipeline :=
  { p with state := if succeeds then .configured else .error }

/-- The check at the start of `Start`. -/
def canStart (p : ChannelPipeline) : Bool := p.state = .configured ∨ p.state = .stopped

/-- `Start` -/
def start (p : ChannelPipeline) (succeeds : Bool) : ChannelPipeline :=
  if p.canStart ∧ succeeds then { p with state := .running, running := true } else p

/-- `Stop`, also at the end of `DrainAndStop`. -/
def stop (p : ChannelPipeline) : ChannelPipeline :=
  if p.running then { p with state := .stopped, running := false } else p

end ChannelPipeline

/-! ### The manager -/

/-- The services a channel is registered with. -/
inductive StreamingService
  | flv
  | hls
  | rtsp
  | ws
  deriving DecidableEq, Repr

/-- What a service is told of a channel when it is registered. -/
structure Registration where
  codec : CodecType := .unknown
  width : ℤ := 0
  height : ℤ := 0
  framerate : ℤ := 0
  deriving DecidableEq, Repr

/-- The arguments of a service's `RegisterChannel`. -/
def StreamingService.registration (config : ChannelConfig) : StreamingService → Registration
  | .flv => {}
  | .hls => {}
  | .rtsp =>
      { codec := config.codec
        width := config.width
        height := config.height
        framerate := config.framerate }
  | .ws =>
      { codec := config.codec
        width := config.width % 65536
        height := config.height % 65536
        framerate := config.framerate }

/-- `ChannelEntry`; its pipeline is named by the number it was built with. -/
structure ChannelEntry (id : ℤ) where
  config : ConfigOf id
  pipeline : ℕ
  state : ChannelState := .created
  errorMessage : String := ""

/-- A pointer to a pipeline in a local variable of a call. -/
structure LocalPointer where
  call : ℕ
  channelId : ℤ
  pipeline : ℕ
  deriving DecidableEq, Repr

/-- What the manager uses of a channel store, whatever its statements do. -/
structure StoreCalls (δ : Type*) where
  save : ChannelConfig → δ → δ
  delete : ℤ → δ → δ
  loadAll : δ → List ChannelConfig

/-- The manager, the services and the orchestrator.  `pipelines` has the pipelines that are not
destroyed, by their channels and numbers. -/
structure Manager (δ : Type*) where
  hasService : StreamingService → Bool
  store : Option δ
  channels : AList ChannelEntry := ∅
  nextChannelId : ℤ := 1
  channelResources : AList (fun _ : ℤ => ChannelResources) := ∅
  pipelines : ℤ → ℕ → Option ChannelPipeline := fun _ _ => none
  built : ℕ := 0
  locals : List LocalPointer := []
  registered : StreamingService → ℤ → Option Registration := fun _ _ => none

variable {δ : Type*}

namespace Manager

/-- The entry of a channel, if it has one, changed. -/
@[simps hasService store nextChannelId channelResources pipelines built locals registered]
def modifyEntry (m : Manager δ) (id : ℤ) (f : ChannelEntry id → ChannelEntry id) : Manager δ :=
  { m with
    channels :=
      match m.channels.lookup id with
      | none => m.channels
      | some entry => m.channels.insert id (f entry) }

@[simp] def setPipeline (m : Manager δ) (id : ℤ) (n : ℕ) (p : Option ChannelPipeline) : Manager δ :=
  { m with pipelines := Function.update m.pipelines id (Function.update (m.pipelines id) n p) }

@[simp] def setRegistered (m : Manager δ) (svc : StreamingService) (id : ℤ)
    (r : Option Registration) : Manager δ :=
  { m with
    registered := Function.update m.registered svc (Function.update (m.registered svc) id r) }

/-- A local variable of a call gets a pointer to a pipeline. -/
@[simp] def hold (m : Manager δ) (call : ℕ) (id : ℤ) (n : ℕ) : Manager δ :=
  { m with locals := { call := call, channelId := id, pipeline := n } :: m.locals }

/-- A call's local variables are reset, or go at its end. -/
@[simp] def dropLocals (m : Manager δ) (call : ℕ) : Manager δ :=
  { m with locals := m.locals.filter (·.call ≠ call) }

/-- `channel_store_->Save`, where there is a store. -/
@[simp] def save (db : StoreCalls δ) (m : Manager δ) (config : ChannelConfig) : Manager δ :=
  { m with store := m.store.map (db.save config) }

/-- The channel, or a call, has a pointer to the pipeline. -/
def owns (m : Manager δ) (id : ℤ) (n : ℕ) : Bool :=
  (m.channels.lookup id).any (·.pipeline = n) ||
    m.locals.any fun l => l.channelId = id ∧ l.pipeline = n

/-- A pipeline with no pointer to it is destroyed; its destructor stops it. -/
@[simp] def release (m : Manager δ) : Manager δ :=
  { m with pipelines := fun id n => if m.owns id n then m.pipelines id n else none }

end Manager

/-! ### Actions -/

/-- A critical section, or a call to a pipeline, a service, the orchestrator or the store. -/
inductive Action
  /-- the first critical section of `StartChannel`, `StopChannel`, `EditChannel`,
  `DeleteChannel` -/
  | startFind (id : ℤ)
  | stopFind (id : ℤ)
  | editFind (id : ℤ)
  | deleteFind (id : ℤ)
  /-- the section that sets a channel's state, and its error message where there is one -/
  | setState (id : ℤ) (state : ChannelState) (message : Option String)
  /-- the section of `StartChannel` that takes over what the stream turned out to be -/
  | detect (id : ℤ) (info : StreamInfo)
  /-- the section of `EditChannel` that puts in the new pipeline -/
  | install (id : ℤ) (config : ConfigOf id) (pipeline : ℕ)
  | initializeStages (id : ℤ) (pipeline : ℕ) (succeeds : Bool)
  | start (id : ℤ) (pipeline : ℕ) (succeeds : Bool)
  | drainAndStop (id : ℤ) (pipeline : ℕ)
  | register (svc : StreamingService) (id : ℤ) (config : ConfigOf id)
  | unregister (svc : StreamingService) (id : ℤ)
  /-- the two critical sections of `BuildPipeline`, the second with what comes after it -/
  | countResources
  | build (id : ℤ) (config : ConfigOf id) (activeCount : ℕ)
  | onChannelRemoved (id : ℤ)
  | save (config : ChannelConfig)
  | delete (id : ℤ)
  | dropLocals

namespace Manager

variable (db : StoreCalls δ)

/-- The second half of `BuildPipeline`: the resources are stored, and the caller gets the
pipeline. -/
@[simp] def build (m : Manager δ) (call : ℕ) (id : ℤ) (config : ConfigOf id) (activeCount : ℕ) :
    Manager δ :=
  let res := allocateResources activeCount
  { (m.setPipeline id m.built (some { config := config.1, resources := res })).hold call id
      m.built with
    built := m.built + 1
    channelResources := m.channelResources.insert id res }

/-- What an action of a call does, before pipelines without a pointer go. -/
def apply (call : ℕ) (m : Manager δ) : Action → Manager δ
  | .startFind id =>
      match m.channels.lookup id with
      | none => m
      | some entry => if entry.state = .running then m else m.hold call id entry.pipeline
  | .stopFind id =>
      match m.channels.lookup id with
      | none => m
      | some entry =>
          if entry.state = .running then
            (m.modifyEntry id fun e => { e with state := .stopping }).hold call id entry.pipeline
          else m
  | .editFind id =>
      match m.channels.lookup id with
      | none => m
      | some entry => m.hold call id entry.pipeline
  | .deleteFind id =>
      match m.channels.lookup id with
      | none => m
      | some entry => { m.hold call id entry.pipeline with channels := m.channels.erase id }
  | .setState id state message =>
      m.modifyEntry id fun e =>
        { e with state := state, errorMessage := message.getD e.errorMessage }
  | .detect id info =>
      match m.channels.lookup id with
      | none => m
      | some entry =>
          (m.modifyEntry id fun e => { e with config := e.config.detect info }).save db
            (entry.config.detect info).1
  | .install id config n =>
      match m.channels.lookup id with
      | none => m
      | some _ =>
          (m.modifyEntry id fun e =>
            { e with config := config, pipeline := n, state := .configured }).dropLocals call
  | .initializeStages id n succeeds =>
      m.setPipeline id n ((m.pipelines id n).map (·.initializeStages succeeds))
  | .start id n succeeds => m.setPipeline id n ((m.pipelines id n).map (·.start succeeds))
  | .drainAndStop id n => m.setPipeline id n ((m.pipelines id n).map (·.stop))
  | .register svc id config =>
      if m.hasService svc then m.setRegistered svc id (some (svc.registration config.1)) else m
  | .unregister svc id => if m.hasService svc then m.setRegistered svc id none else m
  | .countResources => m
  | .build id config activeCount => m.build call id config activeCount
  | .onChannelRemoved id => { m with channelResources := m.channelResources.erase id }
  | .save config => m.save db config
  | .delete id => { m with store := m.store.map (db.delete id) }
  | .dropLocals => m.dropLocals call

/-- The manager after an action of a call. -/
def exec (call : ℕ) (m : Manager δ) (a : Action) : Manager δ := (m.apply db call a).release

end Manager

/-! ### Calls -/

/-- A call to the manager, or a part of one. -/
abbrev Call (δ ρ : Type*) := Program (Manager δ) Action ρ

open Program in
/-- A call with its local variables gone at the end. -/
def withLocals {ρ : Type*} (p : Call δ ρ) : Call δ ρ :=
  p.bind fun r => step .dropLocals fun _ => done r

/-- What a start meets: whether the pipeline's `Initialize` and `Start` go well, and what its
input stage reports. -/
structure StartOutcome where
  initializes : Bool := true
  starts : Bool := true
  info : StreamInfo := {}

/-- `RegisterWithStreamingServices` -/
def registerWithStreamingServices {id : ℤ} (config : ConfigOf id) : Call δ Unit :=
  .acts [.register .flv id config, .register .hls id config, .register .rtsp id config,
    .register .ws id config]

/-- `UnregisterFromStreamingServices`; nothing here reads the sessions it closes last. -/
def unregisterFromStreamingServices (id : ℤ) : Call δ Unit :=
  .acts [.unregister .flv id, .unregister .hls id, .unregister .rtsp id, .unregister .ws id]

/-- What the stream turned out to be is taken over, where the input stage knows. -/
def takeStreamInfo (id : ℤ) (config : ConfigOf id) (info : StreamInfo) : Call δ (ConfigOf id) :=
  if info.width > 0 ∧ info.height > 0 then
    .act (.detect id info) fun m : Manager δ =>
      (m.channels.lookup id).elim config (·.config.detect info)
  else .done config

/-- The part of `StartChannel` after the pipeline has started. -/
def announce (id : ℤ) (config : ConfigOf id) (info : StreamInfo) : Call δ Bool := do
  let config ← takeStreamInfo id config info
  registerWithStreamingServices config
  .acts [.setState id .running (some "")]
  return true

/-- `StartChannel` -/
def startChannel (id : ℤ) (o : StartOutcome) : Call δ Bool := withLocals do
  match ← .act (.startFind id) fun m : Manager δ => m.channels.lookup id with
  | none => return false
  | some entry =>
      if entry.state = .running then return true
      else if ← .act (.initializeStages id entry.pipeline o.initializes)
          fun _ => o.initializes then
        if ← .act (.start id entry.pipeline o.starts) fun m : Manager δ =>
            (m.pipelines id entry.pipeline).any (·.canStart) && o.starts then
          announce id entry.config o.info
        else
          .acts [.setState id .error (some "pipeline start failed")]
          return false
      else
        .acts [.setState id .error (some "pipeline initialization failed")]
        return false

/-- What `StopChannel` and `EditChannel` do with a running channel. -/
def halt (id : ℤ) (pipeline : ℕ) : Call δ Unit := do
  .acts [.drainAndStop id pipeline]
  unregisterFromStreamingServices id
  .acts [.setState id .stopped none]

/-- `StopChannel` -/
def stopChannel (id : ℤ) : Call δ Bool := withLocals do
  match ← .act (.stopFind id) fun m : Manager δ => m.channels.lookup id with
  | none => return false
  | some entry =>
      if entry.state = .running then
        halt id entry.pipeline
        return true
      else return true

/-- `DeleteChannel` -/
def deleteChannel (id : ℤ) : Call δ Bool := withLocals do
  match ← .act (.deleteFind id) fun m : Manager δ => m.channels.lookup id with
  | none => return false
  | some entry =>
      Program.when (entry.state = .running) (.acts [.drainAndStop id entry.pipeline])
      unregisterFromStreamingServices id
      .acts [.onChannelRemoved id, .delete id]
      return true

/-- `BuildPipeline`: the number of the new pipeline, none where there are too many channels. -/
def buildPipeline (id : ℤ) (config : ConfigOf id) : Call δ (Option ℕ) := do
  let activeCount ← .act .countResources fun m : Manager δ => m.channelResources.keys.length
  if activeCount ≥ kMaxChannels then return none
  else .act (.build id config activeCount) fun m : Manager δ => some m.built

/-- The part of `EditChannel` after the old pipeline is stopped and let go. -/
def rebuild (id : ℤ) (config : ConfigOf id) (restart : Bool) (o : StartOutcome) : Call δ Bool := do
  match ← buildPipeline id config with
  | none =>
      .acts [.setState id .error (some "pipeline rebuild failed")]
      return false
  | some n =>
      if ← .act (.install id config n) fun m : Manager δ => (m.channels.lookup id).isSome then
        .acts [.save config.1]
        if restart then startChannel id o else return true
      else return false

/-- `EditChannel` -/
def editChannel (id : ℤ) (newConfig : ChannelConfig) (o : StartOutcome) :
    Call δ Bool := withLocals do
  match ← .act (.editFind id) fun m : Manager δ => m.channels.lookup id with
  | none => return false
  | some entry =>
      Program.when (entry.state = .running) (halt id entry.pipeline)
      .acts [.dropLocals]
      rebuild id (newConfig.withId id) (entry.state = .running) o

/-! ### Operations -/

/-- An order in which the table of channels is walked. -/
structure WalkOrder where
  arrange : List ℤ → List ℤ
  perm : ∀ ids, (arrange ids).Perm ids

/-- An operation and what it meets outside. -/
inductive Operation
  | create (config : ChannelConfig)
  | start (id : ℤ) (o : StartOutcome)
  | stop (id : ℤ)
  | edit (id : ℤ) (newConfig : ChannelConfig) (o : StartOutcome)
  | delete (id : ℤ)
  | startAll (order : WalkOrder) (o : ℤ → StartOutcome)
  | stopAll (order : WalkOrder)
  | load (o : ℤ → StartOutcome)

namespace Manager

variable (db : StoreCalls δ)

/-- A call that runs with no other about: its result and the manager after it. -/
def call {ρ : Type*} (m : Manager δ) (p : Call δ ρ) : ρ × Manager δ := p.run (exec db 0) m

/-- `OnChannelAdded` -/
def onChannelAdded (m : Manager δ) (id : ℤ) : Manager δ :=
  if id ∈ m.channelResources then m
  else { m with channelResources := m.channelResources.insert id {} }

/-- The pipeline of a new entry is built, and the entry put into `channels_`; none where no
pipeline is built. -/
def addChannel (m : Manager δ) (id : ℤ) (config : ConfigOf id) : Option (Manager δ) :=
  match m.call db (buildPipeline id config) with
  | (none, _) => none
  | (some n, m) =>
      let entry : ChannelEntry id := { config := config, pipeline := n }
      some ({ m with channels := m.channels.insert id entry }.dropLocals 0)

/-- `CreateChannel` -/
def createChannel (m : Manager δ) (config : ChannelConfig) : ℤ × Manager δ :=
  if m.channels.keys.length ≥ kMaxChannels then (-1, m)
  else
    let id := m.nextChannelId
    let config := config.withId id
    let m := { m with nextChannelId := id + 1 }
    match m.addChannel db id config with
    | none => (-1, m)
    | some m => (id, (m.onChannelAdded id).save db config.1)

/-- The channels that are running, or that are not, in the order of a walk. -/
def idsWith (m : Manager δ) (order : WalkOrder) (running : Bool) : List ℤ :=
  order.arrange (m.channels.keys.filter fun id =>
    (m.channels.lookup id).any (·.state = .running) = running)

/-- `StartAll` -/
def startAll (m : Manager δ) (order : WalkOrder) (o : ℤ → StartOutcome) : Manager δ :=
  (m.idsWith order false).foldl (fun m id => (m.call db (startChannel id (o id))).2) m

/-- `StopAll` -/
def stopAll (m : Manager δ) (order : WalkOrder) : Manager δ :=
  (m.idsWith order true).foldl (fun m id => (m.call db (stopChannel id)).2) m

/-- One turn of the loop of `LoadChannels`, with the number of channels loaded so far. -/
def loadChannel (o : ℤ → StartOutcome) (acc : ℕ × Manager δ) (config : ChannelConfig) :
    ℕ × Manager δ :=
  let id := config.id
  if id ∈ acc.2.channels then acc
  else
    match acc.2.addChannel db id ⟨config, rfl⟩ with
    | none => acc
    | some m =>
        let m := { m with nextChannelId := max m.nextChannelId (id + 1) }
        match (m.onChannelAdded id).call db (startChannel id (o id)) with
        | (true, m) => (acc.1 + 1, m)
        | (false, m) => (acc.1, m)

/-- `LoadChannels` -/
def loadChannels (m : Manager δ) (o : ℤ → StartOutcome) : ℕ × Manager δ :=
  match m.store with
  | none => (0, m)
  | some rows => (db.loadAll rows).foldl (loadChannel db o) (0, m)

/-- What `CreateChannel` leaves: at most a new id, or the channel. -/
theorem createChannel_cases (m : Manager δ) (config : ChannelConfig) :
    (m.createChannel db config).2 = m ∨
      m.channels.keys.length < kMaxChannels ∧
        ((m.createChannel db config).2 = { m with nextChannelId := m.nextChannelId + 1 } ∨
          ∃ m', addChannel db { m with nextChannelId := m.nextChannelId + 1 } m.nextChannelId
              (config.withId m.nextChannelId) = some m' ∧
            (m.createChannel db config).2 =
              (m'.onChannelAdded m.nextChannelId).save db (config.withId m.nextChannelId).1) := by
  rw [createChannel]
  split
  · exact .inl rfl
  · rename_i hroom
    dsimp only
    split
    · exact .inr ⟨Nat.lt_of_not_ge hroom, .inl rfl⟩
    · rename_i m' hm'
      exact .inr ⟨Nat.lt_of_not_ge hroom, .inr ⟨m', hm', rfl⟩⟩

/-- What a turn of `LoadChannels` leaves: a channel that was not there is put in and started. -/
theorem loadChannel_cases (o : ℤ → StartOutcome) (acc : ℕ × Manager δ) (config : ChannelConfig) :
    (loadChannel db o acc config).2 = acc.2 ∨
      config.id ∉ acc.2.channels ∧
        ∃ m', acc.2.addChannel db config.id ⟨config, rfl⟩ = some m' ∧
          (loadChannel db o acc config).2 =
            ((onChannelAdded { m' with nextChannelId := max m'.nextChannelId (config.id + 1) }
              config.id).call db (startChannel config.id (o config.id))).2 := by
  simp only [loadChannel]
  split
  · exact .inl rfl
  · rename_i hid
    split
    · exact .inl rfl
    · rename_i m' hm'
      refine .inr ⟨hid, m', hm', ?_⟩
      split
      · rename_i hstart
        exact (congrArg Prod.snd hstart).symm
      · rename_i hstart
        exact (congrArg Prod.snd hstart).symm

/-- `UpdateOverlayConfig` -/
def updateOverlayConfig (m : Manager δ) (id : ℤ) (overlay : OverlayConfig) : Bool × Manager δ :=
  ((m.channels.lookup id).isSome, m.modifyEntry id fun e =>
    { e with config := ⟨{ e.config.1 with overlay := overlay }, e.config.2⟩ })

end Manager

/-- An operation that runs to its end with no other about. -/
def Operation.apply (db : StoreCalls δ) (m : Manager δ) : Operation → Manager δ
  | .create config => (m.createChannel db config).2
  | .start id o => (m.call db (startChannel id o)).2
  | .stop id => (m.call db (stopChannel id)).2
  | .edit id newConfig o => (m.call db (editChannel id newConfig o)).2
  | .delete id => (m.call db (deleteChannel id)).2
  | .startAll order o => m.startAll db order o
  | .stopAll order => m.stopAll db order
  | .load o => (m.loadChannels db o).2

end LoongNvr.Channel
