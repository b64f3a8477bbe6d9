import LoongNvr.Pipeline.FrameFlow
import LoongNvr.Support.Runs

/-!
# Pipeline — ChannelKept

Does a frame keep its channel on its way through the pipeline?  The input stage sets it, and the
analysis, rule and overlay stages rely on it.  The decoder in between builds its frames anew and
leaves the channel at -1.

* `channelKept_iff`: so the channel is kept exactly in the runs in which no decoded frame gets as
  far as the analysis stage, and in the pipelines of channel -1.
-/

namespace LoongNvr.Pipeline
open LoongNvr.Core LoongNvr.VideoInput LoongNvr.Codec LoongNvr.Rules Support IouTracker

/-- An event in the pipeline of channel `c` is about channel `c`: frames behind the decoder name
it, `ai.detection` names it, the rules evaluated are the engine's rules for it before the step, and
the overlay is the engine's for it after the step. -/
def EventKeeps (c : ℤ) (before after : PipelineState) : Event → Prop
  | .reached .ai frame | .reached .rule frame | .reached .overlay frame => frame.channelId = c
  | .published event => event.channelId = c
  | .evaluated frame rules context =>
      frame.channelId = c ∧ rules = before.shared.cachedRules c ∧ context.channelId = c
  | .overlaid overlay =>
      overlay.lines = (after.shared.buildOverlayData c).lines ∧
        overlay.regions = (after.shared.buildOverlayData c).regions
  | _ => True

/-- **A frame keeps its channel**: every event of the run is about channel `c`. -/
def ChannelKept (srt : PairSorter) (c : ℤ) : PipelineState → List PipelineAction → Prop :=
  EveryStep (pipeline srt).step fun s a =>
    ∀ e ∈ (pipeline srt).emitted s a, EventKeeps c s ((pipeline srt).step s a) e

/-- The worker of the analysis stage never finds a frame in its queue. -/
def NothingToAnalyse (srt : PairSorter) : PipelineState → List PipelineAction → Prop :=
  EveryStep (pipeline srt).step fun s a =>
    ∀ t frame input, ¬ (pipeline srt).Takes s a 2 t frame input

/-! ### Events of channel -1 -/

variable {srt : PairSorter} {c : ℤ}

/-- What the rule stage says of a frame without a channel is about channel -1: the rules are taken
from the engine before the evaluation, the overlay from the engine after it. -/
theorem ruleEvents_keep {frame : Frame} (hchannel : frame.channelId = -1) {now : ℤ}
    {before after : PipelineState}
    (hafter : after.shared = (RuleStage.processFrame srt before.shared frame now).1) :
    ∀ e ∈ ruleEvents before.shared frame (RuleStage.processFrame srt before.shared frame now).2 now,
      EventKeeps (-1) before after e := by
  intro e he
  rcases List.mem_append.mp he with he | he
  · split at he
    · rw [List.mem_singleton.mp he]
      exact ⟨hchannel, congrArg _ hchannel, hchannel⟩
    · cases he
  · rw [List.mem_singleton.mp he]
    have hoverlay := RuleStage.processFrame_overlay srt before.shared frame now
    rw [← hafter, hchannel] at hoverlay
    exact hoverlay

/-- What a stage behind the decoder says of a frame is about the frame's channel. -/
theorem processFrame_eventKeeps {input : StageInput} {s : PipelineState} {a : PipelineAction}
    {i : ℕ} {t : Station Stage Frame StageQueue} {frame : Frame}
    (htakes : (pipeline srt).Takes s a i t frame input) (hflow : Flow srt c s) :
    ∀ e ∈ (t.state.processFrame srt input s.shared frame).events,
      EventKeeps (-1) s ((pipeline srt).step s a) e := by
  have hshared : ((pipeline srt).step s a).shared =
      (t.state.processFrame srt input s.shared frame).shared := htakes.emitted.2
  have hframe : Waits c i frame := hflow.taken htakes
  have hstage : Suits c i t.state := hflow.suited i t htakes.station
  intro e he
  match i with
  | 0 => exact hframe.elim
  | 1 =>
      obtain ⟨d, hd⟩ := hstage
      rw [hd] at he
      rw [List.mem_singleton.mp he]
      trivial
  | 2 =>
      obtain ⟨ai, hai, -⟩ := hstage
      rw [hai] at he
      rcases List.mem_cons.mp he with rfl | he
      · exact hframe.1
      · obtain ⟨event, hevent, rfl⟩ := List.mem_map.mp he
        exact (AiStage.processFrame_events ai frame event hevent).trans hframe.1
  | i + 3 =>
      have hchannel : frame.channelId = -1 := hframe.1
      rcases hstage with hrule | hoverlay | ⟨o, ho⟩
      · rw [hrule] at he hshared
        rcases List.mem_cons.mp he with rfl | he
        · exact hchannel
        · exact ruleEvents_keep hchannel hshared e he
      · rw [hoverlay] at he
        rcases List.mem_cons.mp he with rfl | he
        · exact hchannel
        · split at he
          · rw [List.mem_singleton.mp he]
            trivial
          · cases he
      · rw [ho] at he
        rcases List.mem_cons.mp he with rfl | he
        · trivial
        · -- nothing is asked of what is streamed
          obtain ⟨channelId, packet, rfl⟩ := OutputStage.processFrame_events he
          trivial

/-- What a stage does by itself is about channel -1. -/
theorem background_eventKeeps {input : StageInput} {s : PipelineState} {after : PipelineState}
    {i : ℕ} {stage : Stage} (hstage : Suits c i stage) :
    ∀ e ∈ (stage.background input s.shared).events, EventKeeps (-1) s after e := by
  intro e he
  match i with
  | 0 =>
      obtain ⟨_, rfl, -⟩ := hstage
      cases he
  | 1 =>
      obtain ⟨d, rfl⟩ := hstage
      cases he
  | 2 =>
      obtain ⟨ai, rfl, hpending⟩ := hstage
      obtain ⟨event, hevent, rfl⟩ := List.mem_map.mp he
      obtain ⟨pending, hmem, hchannel⟩ := ai.inferWorker_events input.drawn hevent
      exact hchannel.trans (hpending pending hmem)
  | i + 3 => rcases hstage with rfl | rfl | ⟨o, rfl⟩ <;> cases he

/-- **Everything behind the decoder** is about channel -1. -/
theorem step_eventKeeps {s : PipelineState} (hflow : Flow srt c s) (a : PipelineAction) :
    ∀ e ∈ (pipeline srt).emitted s a, EventKeeps (-1) s ((pipeline srt).step s a) e := by
  intro e he
  rcases Line.mem_emitted he with ⟨i, t, input, -, ht, he⟩ | ⟨i, t, frame, input, htakes, he⟩
  · exact background_eventKeeps (hflow.suited i t ht) e he
  · exact processFrame_eventKeeps htakes hflow e he

/-! ### Nothing to analyse -/

/-- The stages while no frame has got as far as the analysis. -/
def SuitsIdle (c : ℤ) (i : ℕ) (stage : Stage) : Prop :=
  Suits c i stage ∧ ∀ a, stage = .ai a → a.pendingFrame = none

/-- The frames then: none waits behind the analysis. -/
def WaitsIdle (c : ℤ) (i : ℕ) (frame : Frame) : Prop := Waits c i frame ∧ i ≤ 2

/-- The invariant of a pipeline whose analysis stage has had no frame. -/
abbrev IdleFlow (srt : PairSorter) (c : ℤ) (s : PipelineState) : Prop :=
  LineInv (pipeline srt) (WaitsIdle c) (SuitsIdle c) s

/-- Only the source makes frames by itself. -/
theorem background_out {input : StageInput} {engine : RuleEngine} {i : ℕ} {stage : Stage}
    (hstage : Suits c i stage) {frame : Frame}
    (h : frame ∈ (stage.background input engine).out) : i = 0 := by
  match i with
  | 0 => rfl
  | 1 =>
      obtain ⟨d, rfl⟩ := hstage
      cases h
  | 2 =>
      obtain ⟨a, rfl, -⟩ := hstage
      cases h
  | i + 3 => rcases hstage with rfl | rfl | ⟨o, rfl⟩ <;> cases h

/-- An idle worker stays idle by itself. -/
theorem background_idle {input : StageInput} {engine : RuleEngine} {i : ℕ} {stage : Stage}
    (hstage : SuitsIdle c i stage) :
    ∀ a, (stage.background input engine).state = .ai a → a.pendingFrame = none := by
  intro a ha
  cases stage with
  | ai b =>
      have hb : b.pendingFrame = none := hstage.2 b rfl
      cases ha
      refine Option.eq_none_iff_forall_not_mem.mpr fun pending hmem => ?_
      have hold := b.inferWorker_pendingFrame input.drawn hmem
      rw [hb] at hold
      cases hold
  | input s => cases ha
  | decode d => cases ha
  | rule => cases ha
  | overlay => cases ha
  | output o => cases ha

/-- An idle stage says nothing by itself. -/
theorem background_silent {input : StageInput} {engine : RuleEngine} {i : ℕ} {stage : Stage}
    (hstage : SuitsIdle c i stage) {P : Event → Prop} :
    ∀ e ∈ (stage.background input engine).events, P e := by
  intro e he
  cases stage with
  | ai a =>
      obtain ⟨event, hevent, -⟩ := List.mem_map.mp he
      obtain ⟨pending, hmem, -⟩ := a.inferWorker_events input.drawn hevent
      rw [hstage.2 a rfl] at hmem
      cases hmem
  | input s => cases he
  | decode d => cases he
  | rule => cases he
  | overlay => cases he
  | output o => cases he

theorem IdleFlow.step {s : PipelineState} {a : PipelineAction} (h : IdleFlow srt c s)
    (hnone : ∀ t frame input, ¬ (pipeline srt).Takes s a 2 t frame input) :
    IdleFlow srt c ((pipeline srt).step s a) := by
  refine LineInv.step h (fun i stage input hstage => ?_)
    fun i t frame input htakes hframe hstage => ?_
  · obtain ⟨hsuits, hout⟩ :
        LineInv.Keeps (Waits c) (Suits c) i (stage.background input s.shared) :=
      background_keeps hstage.1
    refine ⟨⟨hsuits, background_idle hstage⟩, fun frame hframe => ⟨hout frame hframe, ?_⟩⟩
    rw [background_out hstage.1 hframe]
    exact Nat.le_succ 1
  · obtain ⟨hsuits, hout⟩ : LineInv.Keeps (Waits c) (Suits c) i
        (t.state.processFrame srt input s.shared frame) := processFrame_keeps hstage.1 hframe.1
    -- The frame is taken in front of the analysis stage, by the decode stage.
    have hbefore : i ≤ 1 := by
      rcases Nat.lt_or_eq_of_le hframe.2 with hlt | rfl
      · exact Nat.le_of_lt_succ hlt
      · exact absurd htakes (hnone t frame input)
    refine ⟨⟨hsuits, fun ai hai => ?_⟩, fun out hmem => ⟨hout out hmem, Nat.succ_le_succ hbefore⟩⟩
    match i, hbefore with
    | 0, _ => exact hframe.1.elim
    | 1, _ =>
        obtain ⟨d, hd⟩ := hsuits
        have hboth := hd.symm.trans hai
        cases hboth

/-- While nothing is analysed, nothing is said of a frame behind the decoder. -/
theorem IdleFlow.eventKeeps {s : PipelineState} {a : PipelineAction} (h : IdleFlow srt c s)
    (hnone : ∀ t frame input, ¬ (pipeline srt).Takes s a 2 t frame input) :
    ∀ e ∈ (pipeline srt).emitted s a, EventKeeps c s ((pipeline srt).step s a) e := by
  intro e he
  rcases Line.mem_emitted he with ⟨i, t, input, -, ht, he⟩ | ⟨i, t, frame, input, htakes, he⟩
  · exact background_silent (h.suited i t ht) e he
  · have hframe := h.taken htakes
    have hstage := h.suited i t htakes.station
    match i, hframe, hstage with
    | 0, hframe, _ => exact hframe.1.elim
    | 1, _, hstage =>
        obtain ⟨d, hd⟩ := hstage.1
        have hdecode : e ∈ (t.state.processFrame srt input s.shared frame).events := he
        rw [hd] at hdecode
        rw [List.mem_singleton.mp hdecode]
        trivial
    | 2, _, _ => exact absurd htakes (hnone t frame input)
    | i + 3, hframe, _ => exact absurd hframe.2 (by omega)

/-! ### The exact condition -/

theorem idleFlow_launch {lib : EngineLibraries} {orc : ChannelOrchestrator} {config : ChannelConfig}
    {entries : List StageEntry} (hbuild : (orc.buildPipeline lib config).2 = some entries)
    {opens : Bool} {stream : Option VideoStream} {engine : RuleEngine} {s : PipelineState}
    (hlaunch : launch entries opens stream engine = some s) : IdleFlow srt config.id s := by
  obtain ⟨res, aiStage, rfl, hpending⟩ := ChannelOrchestrator.buildPipeline_some hbuild
  refine lineInv_launch hlaunch fun i entry t hentry hstation => ?_
  refine ⟨suits_launch hpending hentry hstation, fun a ha => ?_⟩
  obtain ⟨b, hb, hsame⟩ := launch_ai hstation ha
  rw [hsame, ChannelOrchestrator.eq_aiStage (List.mem_of_getElem? hentry) hb, hpending]

/-- **The channel is kept, exactly**: in the pipeline of channel -1, or if the analysis stage never
gets a frame. -/
theorem channelKept_iff (srt : PairSorter) {lib : EngineLibraries} {orc : ChannelOrchestrator}
    {config : ChannelConfig} {entries : List StageEntry}
    (hbuild : (orc.buildPipeline lib config).2 = some entries) {opens : Bool}
    {stream : Option VideoStream} {engine : RuleEngine} {s : PipelineState}
    (hlaunch : launch entries opens stream engine = some s) (actions : List PipelineAction) :
    ChannelKept srt config.id s actions ↔ config.id = -1 ∨ NothingToAnalyse srt s actions := by
  have hflow : Flow srt config.id s := flow_launch hbuild hlaunch
  constructor
  · intro hkept
    by_cases e : config.id = -1
    · exact .inl e
    · refine .inr (EveryStep.of_invariant (I := Flow srt config.id) (fun s a hs _ => Flow.step hs a)
        ?_ hflow hkept)
      intro s a hs hstep t frame input htakes
      obtain ⟨ai, hai, -⟩ := hs.suited 2 t htakes.station
      -- the AI stage says which frame it was given
      have hreached : Event.reached .ai frame ∈ (pipeline srt).emitted s a := by
        rw [htakes.emitted.1]
        show _ ∈ (t.state.processFrame srt input s.shared frame).events
        rw [hai]
        exact List.mem_cons_self
      have hchannel : frame.channelId = -1 := (hs.taken htakes).1
      exact e ((hstep _ hreached).symm.trans hchannel)
  · rintro (e | hnone)
    · rw [ChannelKept, e]
      rw [e] at hflow
      exact everyStep_of_invariant (fun s a hs => Flow.step hs a)
        (fun s a hs => step_eventKeeps hs a) actions hflow
    · exact EveryStep.of_invariant (fun s a hs => IdleFlow.step hs) (fun s a hs => hs.eventKeeps)
        (idleFlow_launch hbuild hlaunch) hnone

/-! ### One camera -/

/-- Libraries that load no model. -/
def noModels : EngineLibraries where
  openCv := ⟨fun _ _ _ _ _ _ => 0⟩
  sortDetections := AiEngine.YoloAdapter.byConfidence
  load _ _ := none
  otherDetector _ _ := ⟨fun _ _ => none⟩

/-- Channel 1. -/
def doorConfig : ChannelConfig where
  id := 1
  rtspUrl := "rtsp://door"

/-- A stream with the 90 kHz clock of RTP. -/
def doorStream : VideoStream where
  index := 0
  codec := .h264
  timeBase := ⟨1, 90000, Nat.one_pos, Nat.succ_pos _⟩

/-- An orchestrator with a rule engine and without models. -/
def doorOrchestrator : ChannelOrchestrator where
  hasRuleEngine := true

/-- The stages of channel 1, the only channel: no queue is scaled down. -/
def doorStages : List StageEntry := doorOrchestrator.stages doorConfig {} {}

theorem build_door : (doorOrchestrator.buildPipeline noModels doorConfig).2 = some doorStages := by
  have hres : allocateResources 0 = {} := by decide +kernel
  show some (doorOrchestrator.stages doorConfig (allocateResources 0) {}) = _
  rw [hres]
  rfl

/-- The first packet, handed to the decoder. -/
def firstPacket : List PipelineAction :=
  [.tick 0 { packet := some ⟨0, [], 90000, 90000, true⟩ }, .pass 0]

/-- While the decoder waits for more packets, nothing is lost. -/
theorem channelKept_before_picture :
    ∃ s, launch doorStages true (some doorStream) {} = some s ∧
      ChannelKept byIou 1 s (firstPacket ++ [.take 1 {}]) := by
  obtain ⟨s, hlaunch⟩ : ∃ s, launch doorStages true (some doorStream) {} = some s := ⟨_, rfl⟩
  refine ⟨s, hlaunch, (channelKept_iff byIou build_door hlaunch _).mpr (.inr ⟨?_, ?_, ?_, trivial⟩)⟩
  all_goals
    rintro t frame input ⟨haction, -, -⟩
    cases haction

/-- **A camera's frames lose their channel**: the picture decoded from channel 1's first packet
reaches the analysis stage under channel -1. -/
theorem not_channelKept :
    ∃ s, launch doorStages true (some doorStream) {} = some s ∧
      ¬ ChannelKept byIou 1 s (firstPacket ++
        [.take 1 { pictures := [⟨blackSquare 2 (by decide), true⟩] }, .pass 1, .take 2 {}]) := by
  refine ⟨_, rfl, fun hkept => ?_⟩
  have hchannel : (-1 : ℤ) = 1 := hkept.2.2.2.2.1 _ List.mem_cons_self
  exact absurd hchannel (by decide)

end LoongNvr.Pipeline
