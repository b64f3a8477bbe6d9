import LoongNvr.Pipeline.FrameFlow
import Mathlib.Tactic.Linarith

/-!
# Pipeline — RuleTimes

Are the times rules are evaluated at real times?  The client passes a packet's presentation time
on in the stream's time base, and the rule stage divides by 1000 what is declared to be in
microseconds.

* `runEvents_onPacketTime`: a frame evaluated has the time of its packet, in the stream's unit.
* `coolingDown_iff_not_elapsed`, `shouldAlert_iff_elapsed`: cooldowns and dwell times compare the
  times of two evaluations.
* `ruleTimesReal_iff`: so times are real exactly for streams that count in microseconds.
-/

namespace LoongNvr.Pipeline
open LoongNvr.Core LoongNvr.AiEngine LoongNvr.VideoInput LoongNvr.Codec LoongNvr.Rules Support
open IouTracker

/-- A presentation time in milliseconds, rounded down. -/
def presentationMs (timeBase : TimeBase) (p : ℤ) : ℤ := p * timeBase.num * 1000 / timeBase.den

/-- An evaluation is at the presentation time of the frame's packet, where that is positive. -/
def RealTime (timeBase : TimeBase) : Event → Prop
  | .evaluated frame _ context =>
      0 < presentationMs timeBase frame.origin →
        context.timestampMs = presentationMs timeBase frame.origin
  | _ => True

/-- The comparison every threshold of the rules makes between the times of two evaluations. -/
def Elapsed (seconds : ℕ) (context context' : FrameContext) : Prop :=
  seconds * 1000 ≤ context'.timestampMs - context.timestampMs

/-- A threshold has elapsed between two evaluations once that many seconds of the stream have gone
by, and at most a millisecond earlier. -/
def ElapsesWith (timeBase : TimeBase) : Event → Event → Prop
  | .evaluated frame _ context, .evaluated frame' _ context' =>
      0 < presentationMs timeBase frame.origin → 0 < presentationMs timeBase frame'.origin →
        ∀ seconds : ℕ,
          (seconds * timeBase.den ≤ (frame'.origin - frame.origin) * timeBase.num →
            Elapsed seconds context context') ∧
          (Elapsed seconds context context' →
            (seconds * 1000 - 1) * timeBase.den <
              (frame'.origin - frame.origin) * timeBase.num * 1000)
  | _, _ => True

/-- **Rule times are real times** for the streams of a time base, in every run of every pipeline:
each evaluation is at its packet's time, and thresholds elapse with the stream. -/
def RuleTimesReal (timeBase : TimeBase) : Prop :=
  ∀ (srt : PairSorter) (lib : EngineLibraries) (orc : ChannelOrchestrator) (config : ChannelConfig)
    (entries : List StageEntry) (opens : Bool) (stream : VideoStream) (engine : RuleEngine)
    (s : PipelineState) (actions : List PipelineAction),
    (orc.buildPipeline lib config).2 = some entries →
    launch entries opens (some stream) engine = some s → stream.timeBase = timeBase →
      (∀ e ∈ (pipeline srt).runEvents s actions, RealTime timeBase e) ∧
      ∀ e ∈ (pipeline srt).runEvents s actions, ∀ e' ∈ (pipeline srt).runEvents s actions,
        ElapsesWith timeBase e e'

/-! ### What the thresholds compare -/

/-- A cooldown runs until its seconds have elapsed since the last event. -/
theorem coolingDown_iff_not_elapsed {entry : EvaluatorEntry} {context context' : FrameContext}
    {seconds : ℕ} (hlast : entry.lastEventTimeMs = context.timestampMs)
    (hpos : 0 < context.timestampMs) (hcooldown : entry.cooldownMs = seconds * 1000) :
    RuleEngine.CoolingDown entry context' ↔ ¬ Elapsed seconds context context' := by
  rw [RuleEngine.CoolingDown, hlast, hcooldown, Elapsed, not_le]
  exact and_iff_right hpos

/-- A track that has not been alerted is due once its seconds have elapsed since it entered. -/
theorem shouldAlert_iff_elapsed {rule : AnalysisRule} {state : LoiterState}
    {context context' : FrameContext} {seconds : ℕ}
    (henter : state.enterTimestampMs = context.timestampMs) (halerted : state.alerted = false)
    (hloiter : rule.loiterTimeSec = seconds) :
    LoiteringEvaluator.shouldAlert rule context' state = true ↔
      Elapsed seconds context context' := by
  simp [LoiteringEvaluator.shouldAlert, henter, halerted, hloiter, Elapsed]

/-! ### The time of an evaluation -/

/-- An evaluation is under the context of a frame that has its packet's time. -/
def OnPacketTime : Event → Prop
  | .evaluated frame _ context =>
      frame.pts = frame.origin ∧ ∃ now, context = RuleStage.frameContext frame now
  | _ => True

variable {srt : PairSorter} {c : ℤ}

theorem step_onPacketTime {s : PipelineState} (hflow : Flow srt c s) (a : PipelineAction) :
    ∀ e ∈ (pipeline srt).emitted s a, OnPacketTime e := by
  intro e he
  rcases Line.mem_emitted he with ⟨i, t, input, -, -, he⟩ | ⟨i, t, frame, input, htakes, he⟩
  · obtain ⟨event, rfl⟩ := Stage.background_events he
    trivial
  · cases e with
    | evaluated evaluatedFrame rules context =>
        obtain ⟨rfl, hcontext⟩ := Stage.processFrame_evaluated he
        exact ⟨(hflow.taken htakes).pts_eq, input.now, hcontext⟩
    | _ => trivial

/-- **Every evaluation of a run** is at its packet's time over 1000. -/
theorem runEvents_onPacketTime {lib : EngineLibraries} {orc : ChannelOrchestrator}
    {config : ChannelConfig} {entries : List StageEntry}
    (hbuild : (orc.buildPipeline lib config).2 = some entries) {opens : Bool}
    {stream : Option VideoStream} {engine : RuleEngine} {s : PipelineState}
    (hlaunch : launch entries opens stream engine = some s) (actions : List PipelineAction) :
    ∀ e ∈ (pipeline srt).runEvents s actions, OnPacketTime e :=
  Line.runEvents_of_invariant (I := Flow srt config.id) (fun _ a hs => Flow.step hs a)
    (fun _ a hs => step_onPacketTime hs a) (flow_launch hbuild hlaunch) actions

/-! ### Streams that count in microseconds -/

/-- There a millisecond is a thousand units. -/
theorem presentationMs_of_micro {timeBase : TimeBase}
    (h : timeBase.num * 1000000 = timeBase.den) (p : ℤ) : presentationMs timeBase p = p / 1000 := by
  have hpos : (0 : ℤ) < timeBase.num * 1000 := by
    have := timeBase.num_pos
    omega
  have hden : (timeBase.den : ℤ) = 1000 * (timeBase.num * 1000) := by
    rw [← h]
    push_cast
    ring
  rw [presentationMs, hden, mul_assoc, Int.mul_ediv_mul_of_pos_left _ _ hpos]

theorem realTime_of_micro {timeBase : TimeBase} (h : timeBase.num * 1000000 = timeBase.den)
    {e : Event} (he : OnPacketTime e) : RealTime timeBase e := by
  cases e with
  | evaluated frame rules context =>
      obtain ⟨hpts, now, rfl⟩ := he
      intro hpos
      rw [presentationMs_of_micro h] at hpos ⊢
      have hms : frame.pts.tdiv 1000 = frame.origin / 1000 := by
        rw [hpts, Int.tdiv_eq_ediv_of_nonneg (by omega)]
      show RuleStage.timestampMs frame now = _
      rw [RuleStage.timestampMs, hms, if_neg (not_le.mpr hpos)]
  | _ => trivial

/-- Over `k` milliseconds rounding down loses none. -/
theorem le_floor_sub {a b d k : ℤ} (hd : 0 < d) (h : k * d ≤ b - a) : k ≤ b / d - a / d := by
  have hshift : (a + k * d) / d = a / d + k := Int.add_mul_ediv_right a k hd.ne'
  have hle : (a + k * d) / d ≤ b / d := Int.ediv_le_ediv hd (by linarith)
  linarith

/-- Rounding down gains less than one. -/
theorem lt_of_le_floor_sub {a b d k : ℤ} (hd : 0 < d) (h : k ≤ b / d - a / d) :
    (k - 1) * d < b - a := by
  have ha : a < d * (a / d) + d := Int.lt_mul_ediv_self_add hd
  have hb : d * (b / d) ≤ b := Int.mul_ediv_self_le hd.ne'
  have hk : k * d ≤ (b / d - a / d) * d := mul_le_mul_of_nonneg_right h hd.le
  linarith

theorem elapses_of_real {timeBase : TimeBase} {e e' : Event} (he : RealTime timeBase e)
    (he' : RealTime timeBase e') : ElapsesWith timeBase e e' := by
  cases e with
  | evaluated frame rules context =>
      cases e' with
      | evaluated frame' rules' context' =>
          intro hpos hpos' seconds
          have hden : (0 : ℤ) < timeBase.den := Int.natCast_pos.mpr timeBase.den_pos
          rw [Elapsed, he hpos, he' hpos']
          constructor
          · intro hgone
            exact le_floor_sub hden (by linarith)
          · intro helapsed
            have := lt_of_le_floor_sub hden helapsed
            linarith
      | _ => trivial
  | _ => trivial

/-! ### A picture's way to the rule stage -/

/-- A model whose engine the libraries make. -/
def faceModel : ModelInfo where
  name := "scrfd"
  family := "face_detector"
  modelPath := "scrfd.onnx"
  backend := "onnxruntime"
  inputShape := []
  classNames := ["face"]

/-- A face. -/
def face : Detection where
  x1 := 0
  y1 := 0
  x2 := 1
  y2 := 1
  confidence := 1
  classId := 0
  className := "face"

/-- Libraries whose engines see a face in every picture. -/
def faceLibraries : EngineLibraries where
  openCv := ⟨fun _ _ _ _ _ _ => 0⟩
  sortDetections := YoloAdapter.byConfidence
  load _ _ := some ⟨⟨true, false, 1, fun _ => none⟩, []⟩
  otherDetector _ _ := ⟨fun _ _ => some [face]⟩

/-- An orchestrator that wires a rule stage and a cascade. -/
def faceOrchestrator : ChannelOrchestrator where
  modelManager := some ⟨[faceModel], List.nodup_singleton _⟩
  hasRuleEngine := true
  cascadeEnabled := true
  cascadeSteps := [("scrfd", "parallel")]

/-- Channel 1 with this model. -/
def faceConfig : ChannelConfig where
  id := 1
  rtspUrl := "rtsp://door"
  aiModelName := "scrfd"

/-- The stages of channel 1. -/
def faceStages : List StageEntry :=
  faceOrchestrator.stages faceConfig {} (faceOrchestrator.makeAiStage faceLibraries faceConfig).2

theorem build_face :
    (faceOrchestrator.buildPipeline faceLibraries faceConfig).2 = some faceStages := by
  have hres : allocateResources 0 = {} := by decide +kernel
  show some (faceOrchestrator.stages faceConfig (allocateResources 0) _) = _
  rw [hres]
  rfl

/-- One packet is delivered. -/
def onePacket (p : ℤ) : List PipelineAction :=
  [.tick 0 { packet := some ⟨0, [], p, 0, true⟩ }, .pass 0]

/-- What libavcodec makes of it. -/
def facePicture : StageInput where
  pictures := [⟨blackSquare 2 Nat.two_pos, true⟩]

/-- The frame the decoder passes on. -/
def decodedFrame (p : ℤ) : Frame :=
  FFmpegDecoder.convertAndDeliver ⟨blackSquare 2 Nat.two_pos, true⟩ p p

/-- The frame the cascade passes on, with a face found at each of its two steps. -/
def faceFrame (p : ℤ) : Frame :=
  { decodedFrame p with analysis := { hasResult := true, detections := [face, face] } }

/-- One packet and its picture, passed on up to the rule stage's queue. -/
def toRuleStage (p : ℤ) : List PipelineAction :=
  onePacket p ++ [.take 1 facePicture, .pass 1, .take 2 {}, .pass 2]

/-- The stations of channel 1 once the packet waits for the decoder. -/
theorem onePacket_stations (srt : PairSorter) (timeBase : TimeBase) (p : ℤ) :
    ∃ s, launch faceStages true (some ⟨0, .h264, timeBase, false⟩) {} = some s ∧
      let s' := (onePacket p).foldl (pipeline srt).step s
      (∃ t frame, (pipeline srt).Takes s' (.take 1 facePicture) 1 t frame facePicture ∧
        (t.state.processFrame srt facePicture s'.shared frame).out = [decodedFrame p]) ∧
      (∃ t queue, s'.stations[2]? = some t ∧ t.outgoing = [] ∧
        (t.queue.push (decodedFrame p)).1.pop = some (decodedFrame p, queue) ∧
        ∀ engine, (t.state.processFrame srt {} engine (decodedFrame p)).out = [faceFrame p]) ∧
      ∃ t queue, s'.stations[3]? = some t ∧ t.outgoing = [] ∧
        (t.queue.push (faceFrame p)).1.pop = some (faceFrame p, queue) ∧ t.state = .rule :=
  ⟨_, rfl, ⟨_, _, ⟨rfl, rfl, _, rfl⟩, rfl⟩, ⟨_, _, rfl, rfl, rfl, fun _ => rfl⟩,
    ⟨_, _, rfl, rfl, rfl, rfl⟩⟩

/-- **The picture is evaluated** at the packet's time over 1000. -/
theorem picture_evaluated (srt : PairSorter) (timeBase : TimeBase) (p : ℤ) :
    ∃ s rules, launch faceStages true (some ⟨0, .h264, timeBase, false⟩) {} = some s ∧
      Event.evaluated (faceFrame p) rules (RuleStage.frameContext (faceFrame p) 0) ∈
        (pipeline srt).runEvents s (toRuleStage p ++ [.take 3 {}]) := by
  obtain ⟨s, hlaunch, ⟨t, frame, hdecodes, hdecoded⟩, ⟨ai, _, hai, haiFree, haiPop, hface⟩,
    ⟨_, queue, _⟩, _, hrule, rfl, hrulePop, rfl⟩ := onePacket_stations srt timeBase p
  obtain ⟨-, hwaits, hlater⟩ := hdecodes.carry hdecoded hai
  have hanalyses := Line.takes_pushed {} hwaits haiFree haiPop
  obtain ⟨-, hwaits, -⟩ := hanalyses.carry (hface _) ((hlater 3 (by decide)).trans hrule)
  have hevaluates := Line.takes_pushed {} hwaits rfl hrulePop
  obtain ⟨rules, hevent⟩ : ∃ rules,
      Event.evaluated (faceFrame p) rules (RuleStage.frameContext (faceFrame p) 0) ∈
        (pipeline srt).emitted ((toRuleStage p).foldl (pipeline srt).step s) (.take 3 {}) := by
    rw [toRuleStage, List.foldl_append]
    exact ⟨_, hevaluates.mem_emitted (Stage.rule_evaluates rfl)⟩
  exact ⟨s, rules, hlaunch, Line.mem_runEvents_concat hevent⟩

/-! ### The exact condition -/

/-- **Rule times are real times, exactly**, for the streams that count in microseconds. -/
theorem ruleTimesReal_iff (timeBase : TimeBase) :
    RuleTimesReal timeBase ↔ timeBase.num * 1000000 = timeBase.den := by
  constructor
  · intro hreal
    have hnum := timeBase.num_pos
    have hden := timeBase.den_pos
    obtain ⟨s, rules, hlaunch, hevent⟩ := picture_evaluated byIou timeBase (1000 * timeBase.den)
    have htime : 0 < presentationMs timeBase (1000 * timeBase.den) →
        RuleStage.timestampMs (faceFrame (1000 * timeBase.den)) 0 =
          presentationMs timeBase (1000 * timeBase.den) :=
      (hreal byIou _ _ _ _ _ _ _ s _ build_face hlaunch rfl).1 _ hevent
    have hms : presentationMs timeBase (1000 * timeBase.den) = timeBase.num * 1000000 := by
      have hscale : (1000 * timeBase.den * timeBase.num * 1000 : ℤ) =
          timeBase.num * 1000000 * timeBase.den := by ring
      rw [presentationMs, hscale]
      exact Int.mul_ediv_cancel _ (by omega)
    have hstamp : RuleStage.timestampMs (faceFrame (1000 * timeBase.den)) 0 = timeBase.den := by
      have hdiv : (faceFrame (1000 * timeBase.den)).pts.tdiv 1000 = timeBase.den :=
        Int.mul_tdiv_cancel_left _ (by decide)
      rw [RuleStage.timestampMs, hdiv, if_neg (by omega)]
    rw [hms, hstamp] at htime
    have hsame := htime (by omega)
    omega
  · rintro hmicro srt lib orc config entries opens stream engine s actions hbuild hlaunch rfl
    have hreal : ∀ e ∈ (pipeline srt).runEvents s actions, RealTime stream.timeBase e :=
      fun e he => realTime_of_micro hmicro (runEvents_onPacketTime hbuild hlaunch actions e he)
    exact ⟨hreal, fun e he e' he' => elapses_of_real (hreal e he) (hreal e' he')⟩

/-- **A camera's rule times are not real times**: with the 90 kHz clock of RTP, the picture of one
second is evaluated at 90 milliseconds. -/
theorem not_ruleTimesReal : ¬ RuleTimesReal ⟨1, 90000, Nat.one_pos, Nat.succ_pos _⟩ := by
  intro hreal
  obtain ⟨s, rules, hlaunch, hevent⟩ :=
    picture_evaluated byIou ⟨1, 90000, Nat.one_pos, Nat.succ_pos _⟩ 90000
  have htime := (hreal byIou _ _ _ _ _ _ _ s _ build_face hlaunch rfl).1 _ hevent
  have hninety : (90 : ℤ) = 1000 := htime (by decide)
  exact absurd hninety (by decide)

end LoongNvr.Pipeline
