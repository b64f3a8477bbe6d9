import LoongNvr.Rules.FrameRuns
import LoongNvr.Rules.RuleStage

/-!
# Rules — SkippedFrames

The rule stage passes a frame without detections by the engine.  Evaluated on it, the rules of its
channel would age their tracks.

* `Evaluator.evaluate_nil_iff`: an evaluator that is given no detections stays as it is exactly if
  it has no active track.
* `evaluate_nil_iff`: so does the engine, exactly if that holds of the rules off cooldown.
* `run_eq_of_everyStep`: a run in which every frame without detections is such a frame ends as if
  no frame had been passed by, with the same events.
* `agree_iff`: the engines agree all along a run exactly if it is one of these.
-/

namespace LoongNvr.Rules
open LoongNvr.Core Support IouTracker

/-! ### A tracker without detections -/

theorem foldl_eq_self {α β : Type*} {f : β → α → β} {b : β} {l : List α}
    (h : ∀ a ∈ l, f b a = b) : l.foldl f b = b := by
  induction l with
  | nil => rfl
  | cons a l ih =>
      rw [List.foldl_cons, h a List.mem_cons_self]
      exact ih fun a' ha' => h a' (List.mem_cons_of_mem a ha')

theorem IouTracker.tracks_update_nil (srt : PairSorter) (tracker : IouTracker) :
    (update srt tracker []).tracks =
      (tracker.tracks.map fun track => ageTrack tracker.config track false).filter
        fun track => !longDead tracker.config track := by
  have hassign : assign srt tracker [] =
      { tracks := tracker.tracks
        trackMatched := List.replicate tracker.tracks.length false
        detMatched := [] } := if_neg fun h => absurd h.2 (by simp)
  have haged : ∀ tracks : List TrackedObject,
      ((tracks.zip (List.replicate tracks.length false)).map fun p =>
        ageTrack tracker.config p.1 p.2) =
        tracks.map fun track => ageTrack tracker.config track false := by
    intro tracks
    induction tracks with
    | nil => rfl
    | cons track tracks ih => exact congrArg (_ :: ·) ih
  simp only [update, hassign, unmatchedDetections, List.zip_nil_left, List.filter_nil,
    List.map_nil, List.mapIdx_nil, List.append_nil]
  rw [← haged tracker.tracks]

/-- With no detection a tracker stays as it is exactly if it has no active track. -/
theorem IouTracker.update_nil_iff (srt : PairSorter) {tracker : IouTracker}
    (halive : ∀ track ∈ tracker.tracks, longDead tracker.config track = false) :
    update srt tracker [] = tracker ↔ tracker.activeCount = 0 := by
  have hage : ∀ track : TrackedObject,
      ageTrack tracker.config track false = track ↔ track.active = false := by
    intro track
    cases hactive : track.active with
    | false => simp [ageTrack, hactive]
    | true =>
        refine iff_of_false (fun h => ?_) (by simp)
        have hframes := congrArg TrackedObject.framesMissing h
        simp [ageTrack, hactive] at hframes
  have hcount : tracker.activeCount = 0 ↔ ∀ track ∈ tracker.tracks, track.active = false := by
    simp [activeCount, List.countP_eq_zero]
  rw [hcount]
  constructor
  · intro h track htrack
    have htracks := congrArg IouTracker.tracks h
    rw [tracks_update_nil] at htracks
    -- nothing is removed, so every track is where it was
    have hall : (tracker.tracks.map fun track => ageTrack tracker.config track false).filter
        (fun track => !longDead tracker.config track) =
          tracker.tracks.map fun track => ageTrack tracker.config track false := by
      refine List.filter_sublist.eq_of_length ?_
      rw [htracks, List.length_map]
    rw [hall] at htracks
    exact (hage track).mp (List.map_inj_left.mp (htracks.trans (List.map_id _).symm) track htrack)
  · intro h
    have hsame : (tracker.tracks.map fun track => ageTrack tracker.config track false) =
        tracker.tracks := by
      refine (List.map_congr_left fun track htrack => (hage track).mpr (h track htrack)).trans ?_
      exact List.map_id _
    have htracks := tracks_update_nil srt tracker
    rw [hsame, List.filter_eq_self.mpr fun track htrack => by simp [halive track htrack]] at htracks
    have hnext : (update srt tracker []).nextTrackId = tracker.nextTrackId := by
      simp [update, unmatchedDetections]
    exact congrArg₂ (IouTracker.mk tracker.config) htracks hnext

/-! ### Evaluators -/

namespace Evaluator

def tracker : Evaluator → IouTracker
  | .crossLine e => e.tracker
  | .regionIntrusion e => e.tracker
  | .counting e => e.tracker
  | .loitering e => e.tracker

/-- Does the evaluator remember something of the track?  Only what its clean-up looks at. -/
def remembers (trackId : ℤ) : Evaluator → Bool
  | .crossLine _ => false -- not cleaned up where there are no detections
  | .regionIntrusion e => (e.wasInside trackId).isSome
  | .counting e => (e.lastSide trackId).isSome
  | .loitering e => (e.trackStates trackId).isSome

/-- `rule_.region.vertices.size() < 3`, where that is looked at. -/
def lacksRegion : Evaluator → Bool
  | .crossLine _ | .counting _ => false
  | .regionIntrusion e => decide (e.rule.region.vertices.length < 3)
  | .loitering e => decide (e.rule.region.vertices.length < 3)

/-- What holds of an evaluator between calls. -/
structure Tidy (e : Evaluator) : Prop where
  alive : ∀ track ∈ e.tracker.tracks, longDead e.tracker.config track = false
  known : ∀ trackId, e.remembers trackId = true → (e.tracker.getTrack trackId).isSome = true
  idle : e.lacksRegion = true → e.tracker.tracks = []

theorem tidy_of_new {e : Evaluator} (htracks : e.tracker.tracks = [])
    (hremembers : ∀ trackId, e.remembers trackId = false) : e.Tidy where
  alive track htrack := by
    rw [htracks] at htrack
    cases htrack
  known trackId h := by
    rw [hremembers trackId] at h
    cases h
  idle _ := htracks

theorem tidy_configure (rule : AnalysisRule) (type : RuleType) :
    ((createEvaluator type).configure rule).Tidy := by
  cases type with
  | crossLine => exact tidy_of_new rfl fun _ => rfl
  | objectCounting => exact tidy_of_new rfl fun _ => rfl
  | regionIntrusion =>
      simp only [createEvaluator, configure, RegionIntrusionEvaluator.configure]
      split
      · exact tidy_of_new rfl fun _ => rfl
      · exact tidy_of_new rfl fun _ => rfl
  | loitering =>
      simp only [createEvaluator, configure, LoiteringEvaluator.configure]
      split
      · exact tidy_of_new rfl fun _ => rfl
      · exact tidy_of_new rfl fun _ => rfl

theorem alive_update (srt : PairSorter) (tracker : IouTracker) (detections : List Detection) :
    ∀ track ∈ (update srt tracker detections).tracks,
      longDead (update srt tracker detections).config track = false := by
  intro track htrack
  have hkept : longDead tracker.config track = false := by
    simpa using (List.mem_filter.mp htrack).2
  exact hkept

/-- What the clean-up leaves is about tracks that are there. -/
theorem known_dropStale {α : Type} {tracker : IouTracker} {m : ℤ → Option α} {trackId : ℤ}
    (h : (dropStale tracker m trackId).isSome = true) :
    (tracker.getTrack trackId).isSome = true := by
  unfold dropStale at h
  split at h
  · assumption
  · cases h

theorem dropStale_eq_self {α : Type} {tracker : IouTracker} {m : ℤ → Option α}
    (h : ∀ trackId, (m trackId).isSome = true → (tracker.getTrack trackId).isSome = true) :
    dropStale tracker m = m := by
  funext trackId
  unfold dropStale
  split
  · rfl
  · next hnone =>
      cases hm : m trackId with
      | none => rfl
      | some a => exact absurd (h trackId (by rw [hm]; rfl)) hnone

theorem counting_rule_tracker (context : FrameContext) (e : CountingEvaluator)
    (tracks : List TrackedObject) (events : List RuleEvent) :
    (tracks.foldl (CountingEvaluator.visitTrack context) (e, events)).1.tracker = e.tracker := by
  refine foldl_of_step (P := fun acc : CountingEvaluator × List RuleEvent =>
    acc.1.tracker = e.tracker) (fun acc track hacc => ?_) tracks rfl
  rw [← hacc]
  unfold CountingEvaluator.visitTrack
  dsimp only
  split
  · rfl
  · split
    · rfl
    · split
      · rfl
      · split
        · rfl
        · rfl

/-- **Between calls evaluators are tidy.** -/
theorem Tidy.evaluate {e : Evaluator} (h : e.Tidy) (srt : PairSorter)
    (detections : List Detection) (context : FrameContext) :
    (e.evaluate srt detections context).1.Tidy := by
  cases e with
  | crossLine e =>
      simp only [Evaluator.evaluate, CrossLineEvaluator.evaluate, Prod.map]
      split
      · exact ⟨alive_update srt _ _, fun _ hm => absurd hm Bool.false_ne_true,
          fun hlacks => absurd hlacks Bool.false_ne_true⟩
      · exact ⟨alive_update srt _ _, fun _ hm => absurd hm Bool.false_ne_true,
          fun hlacks => absurd hlacks Bool.false_ne_true⟩
  | regionIntrusion e =>
      simp only [Evaluator.evaluate, RegionIntrusionEvaluator.evaluate, Prod.map]
      split
      · exact h
      · next hregion =>
          exact ⟨alive_update srt _ _, fun _ hm => known_dropStale hm,
            fun hlacks => absurd (of_decide_eq_true hlacks) hregion⟩
  | counting e =>
      simp only [Evaluator.evaluate, CountingEvaluator.evaluate, Prod.map]
      have htracker := counting_rule_tracker context
        { e with tracker := update srt e.tracker (filterDetections e.rule detections) }
        (update srt e.tracker (filterDetections e.rule detections)).tracks []
      refine ⟨?_, fun trackId hm => ?_, fun hlacks => absurd hlacks Bool.false_ne_true⟩
      · simp only [tracker]
        rw [htracker]
        exact alive_update srt _ _
      · simp only [tracker]
        rw [htracker]
        exact known_dropStale hm
  | loitering e =>
      simp only [Evaluator.evaluate, LoiteringEvaluator.evaluate, Prod.map]
      split
      · exact h
      · next hregion =>
          exact ⟨alive_update srt _ _, fun _ hm => known_dropStale hm,
            fun hlacks => absurd (of_decide_eq_true hlacks) hregion⟩

theorem inactive_of_activeCount {tracker : IouTracker} (h : tracker.activeCount = 0) :
    ∀ track ∈ tracker.tracks, track.active = false := by
  simpa [activeCount, List.countP_eq_zero] using h

/-- Without a region an evaluator does not get as far as its tracker. -/
theorem tracker_evaluate_nil (e : Evaluator) (srt : PairSorter) (context : FrameContext) :
    (e.evaluate srt [] context).1.tracker =
      if e.lacksRegion then e.tracker else update srt e.tracker [] := by
  cases e with
  | crossLine e => rfl
  | regionIntrusion e =>
      by_cases hregion : e.rule.region.vertices.length < 3
      · simp [Evaluator.evaluate, RegionIntrusionEvaluator.evaluate, lacksRegion, hregion]
      · rw [Evaluator.evaluate, RegionIntrusionEvaluator.evaluate, if_neg hregion, lacksRegion,
          decide_eq_false hregion]
        rfl
  | counting e => exact counting_rule_tracker context _ _ _
  | loitering e =>
      by_cases hregion : e.rule.region.vertices.length < 3
      · simp [Evaluator.evaluate, LoiteringEvaluator.evaluate, lacksRegion, hregion]
      · rw [Evaluator.evaluate, LoiteringEvaluator.evaluate, if_neg hregion, lacksRegion,
          decide_eq_false hregion]
        rfl

/-- Without an active track the loop over the tracks does nothing, nor does the clean-up. -/
theorem evaluate_nil_of_idle {e : Evaluator} (h : e.Tidy) (srt : PairSorter)
    (context : FrameContext) (hcount : e.tracker.activeCount = 0) :
    e.evaluate srt [] context = (e, []) := by
  have hidle := inactive_of_activeCount hcount
  have hsame : update srt e.tracker [] = e.tracker := (update_nil_iff srt h.alive).mpr hcount
  cases e with
  | crossLine e =>
      -- returns before the loop, with the tracker updated
      have hempty : (filterDetections e.rule []).isEmpty = true := rfl
      rw [Evaluator.evaluate, CrossLineEvaluator.evaluate, if_pos hempty]
      exact congrArg (fun t => (crossLine { e with tracker := t }, [])) hsame
  | regionIntrusion e =>
      rw [Evaluator.evaluate, RegionIntrusionEvaluator.evaluate]
      split
      · rfl
      · have hfold : e.tracker.tracks.foldl
            (RegionIntrusionEvaluator.visitTrack e.rule context) (e.wasInside, []) =
              (e.wasInside, []) :=
          foldl_eq_self fun track htrack => if_pos (by simp [hidle track htrack])
        have hstale : dropStale e.tracker e.wasInside = e.wasInside := dropStale_eq_self h.known
        dsimp only [tracker, filterDetections, List.filter_nil, Prod.map] at hsame ⊢
        rw [hsame, hfold, hstale]
        rfl
  | counting e =>
      have hfold : e.tracker.tracks.foldl (CountingEvaluator.visitTrack context) (e, []) =
          (e, []) :=
        foldl_eq_self fun track htrack => if_pos (by simp [hidle track htrack])
      have hstale : dropStale e.tracker e.lastSide = e.lastSide := dropStale_eq_self h.known
      rw [Evaluator.evaluate, CountingEvaluator.evaluate]
      dsimp only [tracker, filterDetections, List.filter_nil, Prod.map] at hsame ⊢
      rw [hsame, hfold, hstale]
      rfl
  | loitering e =>
      rw [Evaluator.evaluate, LoiteringEvaluator.evaluate]
      split
      · rfl
      · have hfold : e.tracker.tracks.foldl
            (LoiteringEvaluator.visitTrack e.rule context) (e.trackStates, []) =
              (e.trackStates, []) :=
          foldl_eq_self fun track htrack => if_pos (by simp [hidle track htrack])
        have hstale : dropStale e.tracker e.trackStates = e.trackStates :=
          dropStale_eq_self h.known
        dsimp only [tracker, filterDetections, List.filter_nil, Prod.map] at hsame ⊢
        rw [hsame, hfold, hstale]
        rfl

/-- **An evaluator that is given no detections** stays as it is exactly if it has no active
track. -/
theorem evaluate_nil_iff {e : Evaluator} (h : e.Tidy) (srt : PairSorter) (context : FrameContext) :
    e.evaluate srt [] context = (e, []) ↔ e.tracker.activeCount = 0 := by
  refine ⟨fun heq => ?_, evaluate_nil_of_idle h srt context⟩
  have htracker : (e.evaluate srt [] context).1.tracker = e.tracker := by rw [heq]
  rw [tracker_evaluate_nil] at htracker
  split at htracker
  · next hlacks => simp [activeCount, h.idle hlacks]
  · exact (update_nil_iff srt h.alive).mp htracker

end Evaluator

/-! ### The engine -/

namespace RuleEngine

def Tidy (engine : RuleEngine) : Prop :=
  ∀ channelId, ∀ entry ∈ engine.entries channelId, entry.evaluator.Tidy

theorem tidy_loadRules (engine : RuleEngine) : engine.loadRules.Tidy := by
  intro channelId entry hentry
  rw [entries_loadRules] at hentry
  obtain ⟨rule, -, rfl⟩ := List.mem_map.mp hentry
  exact Evaluator.tidy_configure rule rule.type

theorem Tidy.evaluate {engine : RuleEngine} (h : engine.Tidy) (srt : PairSorter) (channelId : ℤ)
    (detections : List Detection) (context : FrameContext) :
    (engine.evaluate srt channelId detections context).1.Tidy := by
  intro other entry hentry
  rw [entries_evaluate] at hentry
  split at hentry
  · obtain ⟨old, hold, rfl⟩ := List.mem_map.mp hentry
    simp only [evaluateEntry]
    split
    · exact h channelId old hold
    · exact (h channelId old hold).evaluate srt detections context
  · exact h other entry hentry

theorem evaluateEntry_nil_iff {entry : EvaluatorEntry} (h : entry.evaluator.Tidy)
    (srt : PairSorter) (context : FrameContext) :
    evaluateEntry srt [] context entry = (entry, []) ↔
      CoolingDown entry context ∨ entry.evaluator.tracker.activeCount = 0 := by
  rw [← Evaluator.evaluate_nil_iff h srt context]
  by_cases hcooling : CoolingDown entry context
  · exact iff_of_true (if_pos hcooling) (.inl hcooling)
  · rw [evaluateEntry, if_neg hcooling, or_iff_right hcooling]
    constructor
    · intro heq
      have hevents := congrArg Prod.snd heq
      have hevaluator := congrArg (fun r => r.1.evaluator) heq
      exact Prod.ext hevaluator hevents
    · intro heq
      rw [heq]
      rfl

/-- **A frame without detections leaves the engine as it is** exactly if every rule of its channel
cools down or has no active track. -/
theorem evaluate_nil_iff {engine : RuleEngine} (h : engine.Tidy) (srt : PairSorter) (channelId : ℤ)
    (context : FrameContext) :
    engine.evaluate srt channelId [] context = (engine, []) ↔
      ∀ entry ∈ engine.entries channelId,
        CoolingDown entry context ∨ entry.evaluator.tracker.activeCount = 0 := by
  constructor
  · intro heq entry hentry
    have hentries : (engine.entries channelId).map
        (fun e => (evaluateEntry srt [] context e).1) = engine.entries channelId := by
      have hsame := entries_evaluate srt engine channelId channelId [] context
      rw [if_pos rfl, heq] at hsame
      exact hsame.symm
    have hevents : (engine.entries channelId).flatMap
        (fun e => (evaluateEntry srt [] context e).2) = [] := by
      rw [← evaluate_events, heq]
    refine (evaluateEntry_nil_iff (h channelId entry hentry) srt context).mp (Prod.ext ?_ ?_)
    · exact List.map_inj_left.mp (hentries.trans (List.map_id _).symm) entry hentry
    · exact List.flatMap_eq_nil_iff.mp hevents entry hentry
  · intro hquiet
    have hsame : ∀ entry ∈ engine.entries channelId,
        evaluateEntry srt [] context entry = (entry, []) := fun entry hentry =>
      (evaluateEntry_nil_iff (h channelId entry hentry) srt context).mpr (hquiet entry hentry)
    cases hlist : engine.evaluators channelId with
    | none => rw [evaluate, hlist]
    | some list =>
        rw [entries, hlist] at hsame
        have hresults : list.map (evaluateEntry srt [] context) = list.map fun e => (e, []) :=
          List.map_congr_left hsame
        have hentries : (list.map fun e : EvaluatorEntry => (e, ([] : List RuleEvent))).map (·.1) =
            list := by
          rw [List.map_map]
          exact List.map_id list
        have hevents : (list.map fun e : EvaluatorEntry => (e, ([] : List RuleEvent))).flatMap
            (·.2) = [] := by simp
        have hupdate : Function.update engine.evaluators channelId (some list) =
            engine.evaluators := by rw [← hlist, Function.update_eq_self]
        rw [evaluate, hlist]
        dsimp only
        rw [hresults, hentries, hevents, hupdate]
        rfl

/-! ### Two ways through the frames -/

/-- A frame, and the wall clock when it is evaluated. -/
abbrev TimedFrame := Frame × ℤ

/-- The engine and the events after some frames, given what is done with one. -/
def run (evaluateOne : RuleEngine → TimedFrame → RuleEngine × List RuleEvent) :
    RuleEngine → List TimedFrame → RuleEngine × List RuleEvent
  | engine, [] => (engine, [])
  | engine, frame :: frames =>
      let (engine, events) := evaluateOne engine frame
      let (engine, later) := run evaluateOne engine frames
      (engine, events ++ later)

/-- The stage on a frame. -/
def evaluateStage (srt : PairSorter) (engine : RuleEngine) (frame : TimedFrame) :
    RuleEngine × List RuleEvent :=
  RuleStage.evaluateFrame srt engine frame.1 frame.2

/-- `Evaluate` on a frame, with detections or without. -/
def evaluateAlways (srt : PairSorter) (engine : RuleEngine) (frame : TimedFrame) :
    RuleEngine × List RuleEvent :=
  engine.evaluate srt frame.1.channelId frame.1.analysis.detections
    (RuleStage.frameContext frame.1 frame.2)

/-- A frame without detections finds every rule of its channel cooling down or without an active
track. -/
def NothingTracked (engine : RuleEngine) (frame : TimedFrame) : Prop :=
  frame.1.analysis.detections = [] → ∀ entry ∈ engine.entries frame.1.channelId,
    CoolingDown entry (RuleStage.frameContext frame.1 frame.2) ∨
      entry.evaluator.tracker.activeCount = 0

theorem evaluateStage_eq_iff {engine : RuleEngine} (h : engine.Tidy) (srt : PairSorter)
    {frame : TimedFrame} (hresult : frame.1.analysis.hasResult = true) :
    evaluateStage srt engine frame = evaluateAlways srt engine frame ↔
      NothingTracked engine frame := by
  cases hdetections : frame.1.analysis.detections with
  | nil =>
      have hhas : RuleStage.hasDetections frame.1 = false := by
        simp [RuleStage.hasDetections, hdetections]
      rw [evaluateStage, RuleStage.evaluateFrame, if_neg (by simp [hhas]), evaluateAlways,
        hdetections, NothingTracked, imp_iff_right hdetections, eq_comm]
      exact evaluate_nil_iff h srt _ _
  | cons d dets =>
      have hhas : RuleStage.hasDetections frame.1 = true := by
        simp [RuleStage.hasDetections, hdetections, hresult]
      refine iff_of_true ?_ fun hnil => absurd (hdetections.symm.trans hnil) nofun
      rw [evaluateStage, RuleStage.evaluateFrame, if_pos hhas, evaluateAlways]

variable {srt : PairSorter} {frames : List TimedFrame}

theorem run_eq_of_tidy {engine : RuleEngine} (h : engine.Tidy)
    (hresult : ∀ frame ∈ frames, frame.1.analysis.hasResult = true)
    (hquiet : EveryStep (fun engine frame => (evaluateStage srt engine frame).1) NothingTracked
      engine frames) :
    run (evaluateStage srt) engine frames = run (evaluateAlways srt) engine frames := by
  induction frames generalizing engine with
  | nil => rfl
  | cons frame frames ih =>
      obtain ⟨hnow, hlater⟩ := hquiet
      have hframe : evaluateStage srt engine frame = evaluateAlways srt engine frame :=
        (evaluateStage_eq_iff h srt (hresult frame List.mem_cons_self)).mpr hnow
      have hnext : (evaluateStage srt engine frame).1.Tidy := by
        rw [hframe]
        exact h.evaluate srt _ _ _
      have hrest := ih hnext (fun f hf => hresult f (List.mem_cons_of_mem frame hf)) hlater
      simp only [run]
      rw [hrest, hframe]

/-- **A run of the stage ends as if no frame had been passed by**, with the same events, where every
frame without detections finds the rules of its channel cooling down or without an active track. -/
theorem run_eq_of_everyStep (srt : PairSorter) (engine : RuleEngine) (frames : List TimedFrame)
    (hresult : ∀ frame ∈ frames, frame.1.analysis.hasResult = true)
    (hquiet : EveryStep (fun engine frame => (evaluateStage srt engine frame).1) NothingTracked
      engine.loadRules frames) :
    run (evaluateStage srt) engine.loadRules frames =
      run (evaluateAlways srt) engine.loadRules frames :=
  run_eq_of_tidy (tidy_loadRules engine) hresult hquiet

/-- A line across the middle of the pictures of channel 0. -/
def crossing : RuleEngine :=
  (createRule {} { channelId := 0, line := { start := ⟨1 / 2, 0⟩, stop := ⟨1 / 2, 1⟩ } } 0).1

/-- Somebody whose middle is at `x`. -/
def someoneAt (x : ℚ) : Detection where
  x1 := x - 2 / 5
  y1 := 0
  x2 := x + 2 / 5
  y2 := 1
  confidence := 1
  classId := 0
  className := "person"

/-- A frame of channel 0, some seconds after the start. -/
def analysedFrame (seconds : ℕ) (detections : List Detection) : TimedFrame :=
  ({ channelId := 0, pts := seconds * 1000000, origin := seconds
     analysis := { hasResult := true, detections := detections } }, 0)

/-- Someone crosses the line, and is out of sight while the rule cools down. -/
theorem run_crossed :
    run (evaluateStage byIou) crossing.loadRules
        [analysedFrame 1 [someoneAt (2 / 5)], analysedFrame 2 [someoneAt (2 / 5)],
          analysedFrame 3 [someoneAt (3 / 5)], analysedFrame 4 []] =
      run (evaluateAlways byIou) crossing.loadRules
        [analysedFrame 1 [someoneAt (2 / 5)], analysedFrame 2 [someoneAt (2 / 5)],
          analysedFrame 3 [someoneAt (3 / 5)], analysedFrame 4 []] :=
  run_eq_of_everyStep byIou crossing _ (by decide)
    ⟨nofun, nofun, nofun, fun _ => by decide +kernel, trivial⟩

/-- Someone is seen on the left twice, then nobody for eleven frames, then someone on the right.
The stage takes it for one person who crosses the line. -/
theorem run_refuted :
    ¬ ∀ (srt : PairSorter) (engine : RuleEngine) (frames : List TimedFrame),
      (∀ frame ∈ frames, frame.1.analysis.hasResult = true) →
      (∀ frame ∈ frames, 0 < frame.1.pts) → frames.Pairwise (·.1.pts < ·.1.pts) →
        (run (evaluateStage srt) engine.loadRules frames).2 =
          (run (evaluateAlways srt) engine.loadRules frames).2 := by
  intro h
  have hevents := h byIou crossing
    ([analysedFrame 1 [someoneAt (2 / 5)], analysedFrame 2 [someoneAt (2 / 5)]] ++
      (List.range 11).map (fun i => analysedFrame (i + 3) []) ++
        [analysedFrame 14 [someoneAt (3 / 5)]]) (by decide +kernel) (by decide +kernel)
    (by decide +kernel)
  have hcount := congrArg List.length hevents
  revert hcount
  decide +kernel

/-! ### The exact condition -/

theorem run_concat (evaluateOne : RuleEngine → TimedFrame → RuleEngine × List RuleEvent)
    (engine : RuleEngine) (frames : List TimedFrame) (frame : TimedFrame) :
    run evaluateOne engine (frames ++ [frame]) =
      ((evaluateOne (run evaluateOne engine frames).1 frame).1,
        (run evaluateOne engine frames).2 ++
          (evaluateOne (run evaluateOne engine frames).1 frame).2) := by
  induction frames generalizing engine with
  | nil => simp [run]
  | cons first frames ih =>
      simp only [List.cons_append, run, ih, List.append_assoc]

theorem run_fst (evaluateOne : RuleEngine → TimedFrame → RuleEngine × List RuleEvent)
    (engine : RuleEngine) (frames : List TimedFrame) :
    (run evaluateOne engine frames).1 =
      frames.foldl (fun engine frame => (evaluateOne engine frame).1) engine := by
  induction frames generalizing engine with
  | nil => rfl
  | cons frame frames ih => exact ih (evaluateOne engine frame).1

theorem tidy_run (srt : PairSorter) {engine : RuleEngine} (h : engine.Tidy)
    (frames : List TimedFrame) : (run (evaluateAlways srt) engine frames).1.Tidy := by
  rw [run_fst]
  exact foldl_of_step (fun _ frame h => h.evaluate srt _ frame.1.analysis.detections _) frames h

/-- **The engines agree after every part of the frames, with the events so far,** exactly if every
frame without detections is such a frame. -/
theorem agree_iff (srt : PairSorter) {engine : RuleEngine} (h : engine.Tidy)
    {frames : List TimedFrame} (hresult : ∀ frame ∈ frames, frame.1.analysis.hasResult = true) :
    (∀ part, part <+: frames →
        run (evaluateStage srt) engine part = run (evaluateAlways srt) engine part) ↔
      EveryStep (fun engine frame => (evaluateStage srt engine frame).1) NothingTracked
        engine frames := by
  constructor
  · intro hagree
    refine everyStep_iff_split.mpr fun pre frame post hframes => ?_
    have hpre := hagree pre ⟨frame :: post, hframes.symm⟩
    have hnext := hagree (pre ++ [frame]) ⟨post, by rw [hframes, List.append_assoc]; rfl⟩
    rw [run_concat, run_concat, hpre] at hnext
    have hmem : frame ∈ frames := by
      rw [hframes]
      exact List.mem_append_right _ List.mem_cons_self
    rw [← run_fst, hpre]
    refine (evaluateStage_eq_iff (tidy_run srt h pre) srt (hresult frame hmem)).mp ?_
    obtain ⟨hengine, hevents⟩ := Prod.mk.inj hnext
    exact Prod.ext hengine (List.append_cancel_left hevents)
  · rintro hquiet part ⟨rest, rfl⟩
    exact run_eq_of_tidy h (fun frame hframe => hresult frame (List.mem_append_left _ hframe))
      (everyStep_append.mp hquiet).1

end RuleEngine

end LoongNvr.Rules
