import LoongNvr.Rules.RuleEngine
import LoongNvr.Support.Keyed
import LoongNvr.Support.Visits

/-!
# Rules — FrameRuns

Frames of one channel going through the engine, with no change of a rule in between.  Each rule
of the channel then runs on its own: its entry is stepped by every frame, and the events that
carry its id are the ones its entry generates.

* `entryOf_loadRules`: a stored enabled rule has one entry, freshly configured.
* `entryOf_foldl`: after the frames it is the entry stepped by each of them.
* `ruleEvents_loadRules`: the rule's events are those of the entry.
* `evaluator_eq_standalone`: as long as no frame comes during the cooldown, the engine's evaluator
  is the one that is given every frame.
* `countsAgree_of_notCooling`: so the counts are the stand-alone counts.
-/

namespace LoongNvr.Rules.RuleEngine
open LoongNvr.Core Support IouTracker

/-- What the rule stage passes to `Evaluate` for a frame. -/
abbrev RuleFrame := List Detection × FrameContext

variable (srt : PairSorter) (channelId : ℤ)

/-- The engine after a frame of the channel. -/
def frameStep (engine : RuleEngine) (frame : RuleFrame) : RuleEngine :=
  (engine.evaluate srt channelId frame.1 frame.2).1

/-- The events of the frames, in order. -/
def runEvents : RuleEngine → List RuleFrame → List RuleEvent
  | _, [] => []
  | engine, frame :: frames =>
      (engine.evaluate srt channelId frame.1 frame.2).2 ++
        runEvents (frameStep srt channelId engine frame) frames

/-- The events of one rule. -/
def ruleEvents (engine : RuleEngine) (frames : List RuleFrame) (ruleId : ℤ) : List RuleEvent :=
  (runEvents srt channelId engine frames).filter fun event => event.ruleId = ruleId

/-- An entry after a frame. -/
def entryStep (entry : EvaluatorEntry) (frame : RuleFrame) : EvaluatorEntry :=
  (evaluateEntry srt frame.1 frame.2 entry).1

/-- The events of one entry. -/
def entryEvents : EvaluatorEntry → List RuleFrame → List RuleEvent
  | _, [] => []
  | entry, frame :: frames =>
      (evaluateEntry srt frame.1 frame.2 entry).2 ++ entryEvents (entryStep srt entry frame) frames

/-- The entry of a rule among those of the channel. -/
def entryOf (engine : RuleEngine) (channelId ruleId : ℤ) : Option EvaluatorEntry :=
  (engine.entries channelId).find? fun entry => entry.ruleId = ruleId

/-- The entries of the channel have ids of their own, which are those of their evaluators'
rules. -/
structure WellNamed (engine : RuleEngine) (channelId : ℤ) : Prop where
  nodup : ((engine.entries channelId).map (·.ruleId)).Nodup
  named : ∀ entry ∈ engine.entries channelId, entry.evaluator.rule.id = entry.ruleId

/-! ### One entry -/

@[simp] theorem evaluateEntry_ruleId (detections : List Detection) (context : FrameContext)
    (entry : EvaluatorEntry) :
    (evaluateEntry srt detections context entry).1.ruleId = entry.ruleId := by
  simp only [evaluateEntry]
  split <;> rfl

theorem evaluateEntry_rule (detections : List Detection) (context : FrameContext)
    (entry : EvaluatorEntry) :
    (evaluateEntry srt detections context entry).1.evaluator.rule = entry.evaluator.rule := by
  simp only [evaluateEntry]
  split
  · rfl
  · exact (Evaluator.evaluate_event context srt detections entry.evaluator).1

/-- The events of an entry name its evaluator's rule and the frame. -/
theorem evaluateEntry_events (detections : List Detection) (context : FrameContext)
    (entry : EvaluatorEntry) :
    AllName entry.evaluator.rule context (evaluateEntry srt detections context entry).2 := by
  simp only [evaluateEntry]
  split
  · exact allName_nil
  · exact (Evaluator.evaluate_event context srt detections entry.evaluator).2

/-! ### The engine, entry by entry -/

variable {srt channelId}

theorem entryOf_frameStep (engine : RuleEngine) (frame : RuleFrame) (ruleId : ℤ) :
    entryOf (frameStep srt channelId engine frame) channelId ruleId =
      (entryOf engine channelId ruleId).map fun entry => entryStep srt entry frame := by
  simp only [entryOf, frameStep]
  rw [entries_evaluate, if_pos rfl, List.find?_map]
  simp only [Function.comp_def, evaluateEntry_ruleId]
  rfl

/-- **The entry of a rule after the frames** is its entry before them, stepped by each. -/
theorem entryOf_foldl (engine : RuleEngine) (frames : List RuleFrame) (ruleId : ℤ) :
    entryOf (frames.foldl (frameStep srt channelId) engine) channelId ruleId =
      (entryOf engine channelId ruleId).map fun entry => frames.foldl (entryStep srt) entry := by
  induction frames generalizing engine with
  | nil => simp
  | cons frame frames ih =>
      rw [List.foldl_cons, ih, entryOf_frameStep, Option.map_map]
      rfl

/-- A condition on a rule's entry before each frame, seen from the engine and from the entry. -/
theorem everyStep_entry {G : EvaluatorEntry → RuleFrame → Prop} {ruleId : ℤ}
    {frames : List RuleFrame} {engine : RuleEngine} {entry : EvaluatorEntry}
    (hentry : entryOf engine channelId ruleId = some entry)
    (h : EveryStep (frameStep srt channelId)
      (fun engine frame => ∀ entry ∈ entryOf engine channelId ruleId, G entry frame)
      engine frames) :
    EveryStep (entryStep srt) G entry frames := by
  induction frames generalizing engine entry with
  | nil => trivial
  | cons frame frames ih =>
      refine ⟨h.1 entry hentry, ih ?_ h.2⟩
      rw [entryOf_frameStep, hentry]
      rfl

theorem WellNamed.frameStep (srt : PairSorter) {engine : RuleEngine}
    (h : WellNamed engine channelId) (frame : RuleFrame) :
    WellNamed (frameStep srt channelId engine frame) channelId := by
  have hentries : (RuleEngine.frameStep srt channelId engine frame).entries channelId =
      (engine.entries channelId).map fun e => (evaluateEntry srt frame.1 frame.2 e).1 := by
    simp only [RuleEngine.frameStep]
    rw [entries_evaluate, if_pos rfl]
  refine ⟨?_, fun entry hmem => ?_⟩
  · rw [hentries, List.map_map]
    simpa [Function.comp_def] using h.nodup
  · rw [hentries] at hmem
    obtain ⟨old, hold, rfl⟩ := List.mem_map.mp hmem
    rw [evaluateEntry_rule, evaluateEntry_ruleId]
    exact h.named old hold

/-- In a list of entries with ids of their own, the events with an id are those of the entry with
it. -/
theorem filter_flatMap_entries (frame : RuleFrame) (ruleId : ℤ) :
    ∀ list : List EvaluatorEntry, (list.map (·.ruleId)).Nodup →
      (∀ entry ∈ list, entry.evaluator.rule.id = entry.ruleId) →
      (list.flatMap fun e => (evaluateEntry srt frame.1 frame.2 e).2).filter
          (fun event => event.ruleId = ruleId) =
        ((list.find? fun entry => entry.ruleId = ruleId).map fun e =>
          (evaluateEntry srt frame.1 frame.2 e).2).getD [] := by
  intro list hnodup hnamed
  have htag : ∀ entry ∈ list, ∀ event ∈ (evaluateEntry srt frame.1 frame.2 entry).2,
      event.ruleId = entry.ruleId := fun entry hmem event hevent =>
    (evaluateEntry_events srt frame.1 frame.2 entry event hevent).1.trans (hnamed entry hmem)
  exact filter_flatMap_of_tag ruleId hnodup htag

/-- **A rule's events** are those of its entry. -/
theorem ruleEvents_eq {engine : RuleEngine} (h : WellNamed engine channelId)
    (frames : List RuleFrame) (ruleId : ℤ) :
    ruleEvents srt channelId engine frames ruleId =
      ((entryOf engine channelId ruleId).map
        fun entry => entryEvents srt entry frames).getD [] := by
  induction frames generalizing engine with
  | nil => cases entryOf engine channelId ruleId <;> rfl
  | cons frame frames ih =>
      have hrest := ih (h.frameStep srt frame)
      rw [entryOf_frameStep] at hrest
      have hnow := @filter_flatMap_entries srt frame ruleId _ h.nodup h.named
      have hsplit : ruleEvents srt channelId engine (frame :: frames) ruleId =
          ((engine.entries channelId).flatMap
            fun e => (evaluateEntry srt frame.1 frame.2 e).2).filter
              (fun event => event.ruleId = ruleId) ++
            ruleEvents srt channelId (RuleEngine.frameStep srt channelId engine frame) frames
              ruleId := by
        rw [← evaluate_events]
        exact List.filter_append _ _
      rw [hsplit, hrest, hnow]
      show ((entryOf engine channelId ruleId).map _).getD [] ++ _ = _
      cases entryOf engine channelId ruleId <;> rfl

/-! ### From the store -/

theorem wellNamed_loadRules (engine : RuleEngine) : WellNamed engine.loadRules channelId := by
  have hids : (engine.loadRules.entries channelId).map (·.ruleId) =
      (engine.store.rules.select (RuleStore.enabledOn channelId)).map (·.1) := by
    rw [entries_loadRules, buildEvaluators, RuleStore.listEnabledRulesByChannel, List.map_map,
      List.map_map]
    exact List.map_congr_left fun row _ => decodeRule_id row
  refine ⟨?_, fun entry hmem => ?_⟩
  · rw [hids]
    exact List.pairwise_map.mpr ((engine.store.rules.sorted.filter _).imp ne_of_lt)
  · rw [entries_loadRules] at hmem
    obtain ⟨rule, -, rfl⟩ := List.mem_map.mp hmem
    exact congrArg AnalysisRule.id (Evaluator.configure_rule rule _)

/-- **The entry of a stored rule**, as `LoadRules` builds it. -/
theorem entryOf_loadRules (engine : RuleEngine) {rule : AnalysisRule}
    (h : rule ∈ engine.store.listEnabledRulesByChannel channelId) :
    entryOf engine.loadRules channelId rule.id = some (makeEntry rule) := by
  have hmem : makeEntry rule ∈ engine.loadRules.entries channelId := by
    rw [entries_loadRules]
    exact List.mem_map_of_mem h
  exact (find?_key_eq_some_iff (wellNamed_loadRules engine).nodup).mpr ⟨hmem, rfl⟩

theorem ruleEvents_loadRules (engine : RuleEngine) {rule : AnalysisRule}
    (h : rule ∈ engine.store.listEnabledRulesByChannel channelId) (frames : List RuleFrame) :
    ruleEvents srt channelId engine.loadRules frames rule.id =
      entryEvents srt (makeEntry rule) frames := by
  rw [ruleEvents_eq (wellNamed_loadRules engine), entryOf_loadRules engine h]
  rfl

end LoongNvr.Rules.RuleEngine

/-! ### Cooldowns

What a cooldown does to counting.  While a rule's cooldown runs the engine does not call the
rule's evaluator at all, so what passes in that time is neither tracked nor counted; a
`LoiteringEvaluator`, which keeps a cooldown of its own, goes on observing during it.
-/

namespace LoongNvr.Rules.RuleEngine
open LoongNvr.Core Support IouTracker

/-- A stand-alone evaluator that is given every frame. -/
def standalone (srt : PairSorter) (rule : AnalysisRule) (frames : List RuleFrame) :
    CountingEvaluator :=
  frames.foldl (fun e frame => (e.evaluate srt frame.1 frame.2).1)
    (CountingEvaluator.configure {} rule)

/-- The rule's evaluator in the engine. -/
def evaluatorOf (engine : RuleEngine) (channelId ruleId : ℤ) : Option Evaluator :=
  (entryOf engine channelId ruleId).map (·.evaluator)

/-- After the frames, the counts of the rule are those of the stand-alone evaluator. -/
def CountsAgree (srt : PairSorter) (engine : RuleEngine) (channelId : ℤ) (rule : AnalysisRule)
    (frames : List RuleFrame) : Prop :=
  (evaluatorOf (frames.foldl (frameStep srt channelId) engine.loadRules) channelId rule.id).bind
      Evaluator.counts =
    some ((standalone srt rule frames).countAToB, (standalone srt rule frames).countBToA)

instance (srt : PairSorter) (engine : RuleEngine) (channelId : ℤ) (rule : AnalysisRule)
    (frames : List RuleFrame) : Decidable (CountsAgree srt engine channelId rule frames) :=
  inferInstanceAs (Decidable (_ = _))

/-- The rule's cooldown is not running when the frame comes. -/
def NotCooling (channelId ruleId : ℤ) (engine : RuleEngine) (frame : RuleFrame) : Prop :=
  ∀ entry ∈ entryOf engine channelId ruleId, ¬ CoolingDown entry frame.2

instance (channelId ruleId : ℤ) (engine : RuleEngine) (frame : RuleFrame) :
    Decidable (NotCooling channelId ruleId engine frame) :=
  inferInstanceAs (Decidable (∀ entry ∈ entryOf engine channelId ruleId, _))

variable {srt : PairSorter} {channelId : ℤ}

theorem entryStep_evaluator {entry : EvaluatorEntry} {frame : RuleFrame}
    (h : ¬ CoolingDown entry frame.2) :
    (entryStep srt entry frame).evaluator = (entry.evaluator.evaluate srt frame.1 frame.2).1 := by
  simp only [entryStep, evaluateEntry]
  rw [if_neg h]

/-- An entry that never cools down has an evaluator that was given every frame. -/
theorem foldl_evaluator {entry : EvaluatorEntry} {e : CountingEvaluator} {frames : List RuleFrame}
    (he : entry.evaluator = .counting e)
    (h : EveryStep (entryStep srt) (fun entry frame => ¬ CoolingDown entry frame.2) entry frames) :
    (frames.foldl (entryStep srt) entry).evaluator =
      .counting (frames.foldl (fun e frame => (e.evaluate srt frame.1 frame.2).1) e) := by
  induction frames generalizing entry e with
  | nil => exact he
  | cons frame frames ih =>
      refine ih ?_ h.2
      rw [entryStep_evaluator h.1, he]
      rfl

/-- **The engine's evaluator is the stand-alone one** while no frame comes during the rule's
cooldown. -/
theorem evaluator_eq_standalone (engine : RuleEngine) {rule : AnalysisRule}
    (hrule : rule ∈ engine.store.listEnabledRulesByChannel channelId)
    (htype : rule.type = .objectCounting) {frames : List RuleFrame}
    (h : EveryStep (frameStep srt channelId) (NotCooling channelId rule.id) engine.loadRules
      frames) :
    evaluatorOf (frames.foldl (frameStep srt channelId) engine.loadRules) channelId rule.id =
      some (.counting (standalone srt rule frames)) := by
  have hentry := entryOf_loadRules engine hrule
  have hconf : (makeEntry rule).evaluator = .counting (CountingEvaluator.configure {} rule) := by
    simp only [makeEntry, htype]
    rfl
  rw [evaluatorOf, entryOf_foldl, hentry, Option.map_some, Option.map_some,
    foldl_evaluator hconf (everyStep_entry hentry h)]
  rfl

/-- **Counting through the engine** counts what a stand-alone evaluator counts, as long as no
frame comes while the rule's cooldown runs. -/
theorem countsAgree_of_notCooling (engine : RuleEngine) {rule : AnalysisRule}
    (hrule : rule ∈ engine.store.listEnabledRulesByChannel channelId)
    (htype : rule.type = .objectCounting) {frames : List RuleFrame}
    (h : EveryStep (frameStep srt channelId) (NotCooling channelId rule.id) engine.loadRules
      frames) :
    CountsAgree srt engine channelId rule frames := by
  rw [CountsAgree, evaluator_eq_standalone engine hrule htype h]
  rfl

/-! ### Two crossings, one second apart -/

/-- A counting rule on the line x = 1/2 of channel 0, with a cooldown of a minute. -/
def gateRule : AnalysisRule where
  type := .objectCounting
  channelId := 0
  cooldownSec := 60
  line := { start := { x := 1 / 2, y := 0 }, stop := { x := 1 / 2, y := 1 } }

/-- An engine with the rule stored. -/
def gateEngine : RuleEngine := { store := (RuleStore.createRule {} gateRule 0).1 }

/-- The rule as it is stored. -/
def storedGateRule : AnalysisRule := decodeRule (1, encodeRule gateRule 0)

theorem storedGateRule_mem : storedGateRule ∈ gateEngine.store.listEnabledRulesByChannel 0 :=
  List.mem_singleton_self _

/-- A frame of 100 by 100 pixels with one person, 40 pixels wide, whose left edge is at `x`. -/
def gateFrame (x ms : ℤ) : RuleFrame :=
  ([{ x1 := x, y1 := 10, x2 := x + 40, y2 := 90, confidence := 9 / 10, classId := 0,
      className := "person" }],
    { channelId := 0, timestampMs := ms, frameWidth := 100, frameHeight := 100 })

/-- The person crosses, and comes back when the cooldown is over. -/
theorem countsAgree_after_cooldown :
    CountsAgree byIou gateEngine 0 storedGateRule
      [gateFrame 25 1000, gateFrame 25 2000, gateFrame 35 3000, gateFrame 25 64000] :=
  countsAgree_of_notCooling gateEngine storedGateRule_mem (by rfl) (by decide +kernel)

/-- The person crosses and comes back a second later: the engine counts one crossing of two. -/
theorem not_countsAgree : ¬ CountsAgree byIou gateEngine 0 storedGateRule
    [gateFrame 25 1000, gateFrame 25 2000, gateFrame 35 3000, gateFrame 25 4000] := by
  decide +kernel

end LoongNvr.Rules.RuleEngine
