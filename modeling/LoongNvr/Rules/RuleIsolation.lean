import LoongNvr.Rules.RuleEngine
import LoongNvr.Rules.FrameRuns

/-!
# Rules — RuleIsolation

What a change of one rule does to the others.  The change is followed by a reload of one channel,
which builds the evaluators of all its enabled rules anew.

* `entryOf_apply`: after a change the other rules of the channel reloaded have the entries they are
  built with, the rest what they had.
* `eventsOf_of_agree`: rules with the same entries emit the same events.
* `undisturbed_iff`: a change leaves the other rules alone exactly if those on the channel reloaded
  are as built.
-/

namespace LoongNvr.Rules.RuleEngine
open LoongNvr.Core Support IouTracker

/-! ### Frames and changes -/

/-- A call of the engine: a frame of a channel, or a change of a rule. -/
inductive Call
  | frame (channelId : ℤ) (frame : RuleFrame)
  | change (change : Change)

def callStep (srt : PairSorter) (engine : RuleEngine) : Call → RuleEngine
  | .frame channelId frame => frameStep srt channelId engine frame
  | .change change => engine.apply change

/-- The events of frames of any channels. -/
def allEvents (srt : PairSorter) : RuleEngine → List (ℤ × RuleFrame) → List RuleEvent
  | _, [] => []
  | engine, (channelId, frame) :: frames =>
      (engine.evaluate srt channelId frame.1 frame.2).2 ++
        allEvents srt (frameStep srt channelId engine frame) frames

/-- The events of one rule among them. -/
def eventsOf (srt : PairSorter) (engine : RuleEngine) (frames : List (ℤ × RuleFrame))
    (ruleId : ℤ) : List RuleEvent :=
  (allEvents srt engine frames).filter fun event => event.ruleId = ruleId

/-- The rule a change is about; a new one has the next id. -/
def subject (engine : RuleEngine) : Change → ℤ
  | .create _ _ => engine.store.rules.seq + 1
  | .update rule _ => rule.id
  | .delete ruleId => ruleId

/-- The channel that is reloaded; none where there is nothing to delete. -/
def reloaded (engine : RuleEngine) : Change → Option ℤ
  | .create rule _ | .update rule _ => some rule.channelId
  | .delete ruleId => (engine.store.getRule ruleId).map (·.channelId)

/-- The entry a rule is built with, if it is enabled and on the channel. -/
def freshEntry (store : RuleStore) (channelId ruleId : ℤ) : Option EvaluatorEntry :=
  (buildEvaluators store channelId).find? fun entry => entry.ruleId = ruleId

def Enabled (store : RuleStore) (ruleId : ℤ) : Prop :=
  (store.rules.find ruleId).any (·.enabled) = true

/-- Every other enabled rule has the evaluator and the clock it had, on every channel, and emits the
events it would have emitted. -/
def Undisturbed (srt : PairSorter) (engine : RuleEngine) (change : Change) : Prop :=
  ∀ ruleId, ruleId ≠ engine.subject change → Enabled engine.store ruleId →
    (∀ channelId, entryOf (engine.apply change) channelId ruleId =
      entryOf engine channelId ruleId) ∧
    ∀ frames, eventsOf srt (engine.apply change) frames ruleId = eventsOf srt engine frames ruleId

/-- On the channel that is reloaded every other enabled rule is as it is built. -/
def Unused (engine : RuleEngine) (change : Change) : Prop :=
  ∀ channelId ∈ engine.reloaded change, ∀ ruleId, ruleId ≠ engine.subject change →
    Enabled engine.store ruleId →
      entryOf engine channelId ruleId = freshEntry engine.store channelId ruleId

/-! ### The store -/

theorem freshEntry_eq (store : RuleStore) (channelId ruleId : ℤ) :
    freshEntry store channelId ruleId =
      ((store.rules.select (RuleStore.enabledOn channelId)).find? fun row => row.1 = ruleId).map
        fun row => makeEntry (decodeRule row) := by
  rw [freshEntry, buildEvaluators, RuleStore.listEnabledRulesByChannel, List.map_map,
    List.find?_map]
  congr 2
  funext row
  exact congrArg (fun id => decide (id = ruleId)) (decodeRule_id row)

/-- A change of a rule does not touch the rows of the others. -/
theorem freshEntry_apply (engine : RuleEngine) (change : Change) {ruleId : ℤ}
    (h : ruleId ≠ engine.subject change) (channelId : ℤ) :
    freshEntry (engine.apply change).store channelId ruleId =
      freshEntry engine.store channelId ruleId := by
  rw [freshEntry_eq, freshEntry_eq]
  congr 1
  cases change with
  | create rule now =>
      have hstore : (engine.apply (.create rule now)).store =
          (engine.store.createRule rule now).1 := by
        simp only [apply, createRule]
        split
        · rfl
        · rfl
      rw [hstore]
      exact Table.find?_select_insert _ h
  | update rule now => exact Table.find?_select_modify _ h
  | delete id =>
      simp only [apply, deleteRule]
      split
      · rfl
      · exact Table.find?_select_delete h

/-! ### The cache -/

theorem entries_apply (engine : RuleEngine) (change : Change) (channelId : ℤ) :
    (engine.apply change).entries channelId =
      if engine.reloaded change = some channelId then
        buildEvaluators (engine.apply change).store channelId
      else engine.entries channelId := by
  have hreload : ∀ (store : RuleStore) (other : ℤ),
      ({ engine with store := store }.reloadChannel other).entries channelId =
        if some other = some channelId then buildEvaluators store channelId
        else engine.entries channelId := by
    intro store other
    rw [entries_reloadChannel]
    by_cases heq : channelId = other
    · subst heq
      simp
    · rw [if_neg heq, if_neg fun h => heq (Option.some.inj h).symm]
      rfl
  cases change with
  | create rule now =>
      -- ids count from 1, so a created rule always reloads its channel
      have hpos : engine.store.rules.seq + 1 > 0 :=
        Int.lt_add_one_of_le engine.store.rules.seq_nonneg
      have happly : engine.apply (.create rule now) =
          { engine with store := (engine.store.createRule rule now).1 }.reloadChannel
            rule.channelId := by
        simp [apply, createRule, RuleStore.createRule, hpos]
      rw [happly]
      exact hreload _ _
  | update rule now => exact hreload _ _
  | delete ruleId =>
      cases hget : engine.store.getRule ruleId with
      | none =>
          have happly : engine.apply (.delete ruleId) = engine := by simp [apply, deleteRule, hget]
          rw [happly, reloaded, hget]
          rfl
      | some existing =>
          have happly : engine.apply (.delete ruleId) =
              { engine with store := engine.store.deleteRule ruleId }.reloadChannel
                existing.channelId := by
            simp [apply, deleteRule, hget]
          rw [happly, reloaded, hget]
          exact hreload _ _

/-- **The other rules after a change.** -/
theorem entryOf_apply (engine : RuleEngine) (change : Change) {ruleId : ℤ}
    (h : ruleId ≠ engine.subject change) (channelId : ℤ) :
    entryOf (engine.apply change) channelId ruleId =
      if engine.reloaded change = some channelId then freshEntry engine.store channelId ruleId
      else entryOf engine channelId ruleId := by
  rw [entryOf, entries_apply]
  split
  · exact freshEntry_apply engine change h channelId
  · rfl

/-! ### The same entries, the same events -/

theorem WellNamed.congr {a b : RuleEngine} {channelId : ℤ} (h : WellNamed a channelId)
    (hentries : b.entries channelId = a.entries channelId) : WellNamed b channelId where
  nodup := by
    rw [hentries]
    exact h.nodup
  named := by
    rw [hentries]
    exact h.named

theorem entries_frameStep_of_ne (srt : PairSorter) (engine : RuleEngine) (frame : RuleFrame)
    {channelId other : ℤ} (h : other ≠ channelId) :
    (frameStep srt channelId engine frame).entries other = engine.entries other := by
  rw [frameStep, entries_evaluate, if_neg h]

theorem wellNamed_frameStep (srt : PairSorter) {engine : RuleEngine}
    (h : ∀ channelId, WellNamed engine channelId) (channelId : ℤ) (frame : RuleFrame) (other : ℤ) :
    WellNamed (frameStep srt channelId engine frame) other := by
  by_cases heq : other = channelId
  · subst heq
    exact (h other).frameStep srt frame
  · exact (h other).congr (entries_frameStep_of_ne srt engine frame heq)

theorem wellNamed_apply {engine : RuleEngine} (h : ∀ channelId, WellNamed engine channelId)
    (change : Change) (channelId : ℤ) : WellNamed (engine.apply change) channelId := by
  by_cases hreload : engine.reloaded change = some channelId
  · refine (wellNamed_loadRules (engine.apply change)).congr ?_
    rw [entries_apply, if_pos hreload, entries_loadRules]
  · refine (h channelId).congr ?_
    rw [entries_apply, if_neg hreload]

theorem wellNamed_callStep {srt : PairSorter} {engine : RuleEngine}
    (h : ∀ channelId, WellNamed engine channelId) (call : Call) :
    ∀ channelId, WellNamed (callStep srt engine call) channelId := by
  cases call with
  | frame channelId frame => exact wellNamed_frameStep srt h channelId frame
  | change change => exact wellNamed_apply h change

theorem entryOf_frameStep_of_agree {srt : PairSorter} {a b : RuleEngine} {ruleId : ℤ}
    (h : ∀ channelId, entryOf a channelId ruleId = entryOf b channelId ruleId) (channelId : ℤ)
    (frame : RuleFrame) (other : ℤ) :
    entryOf (frameStep srt channelId a frame) other ruleId =
      entryOf (frameStep srt channelId b frame) other ruleId := by
  by_cases heq : other = channelId
  · subst heq
    rw [entryOf_frameStep, entryOf_frameStep, h]
  · rw [entryOf, entryOf, entries_frameStep_of_ne srt a frame heq,
      entries_frameStep_of_ne srt b frame heq]
    exact h other

/-- A rule's events of one frame are those of its entry on the frame's channel. -/
theorem evaluate_ruleEvents {srt : PairSorter} {engine : RuleEngine} {channelId : ℤ}
    (h : WellNamed engine channelId) (frame : RuleFrame) (ruleId : ℤ) :
    (engine.evaluate srt channelId frame.1 frame.2).2.filter
        (fun event => event.ruleId = ruleId) =
      ((entryOf engine channelId ruleId).map fun e =>
        (evaluateEntry srt frame.1 frame.2 e).2).getD [] := by
  rw [evaluate_events]
  exact filter_flatMap_entries frame ruleId _ h.nodup h.named

theorem eventsOf_cons (srt : PairSorter) (engine : RuleEngine) (channelId : ℤ) (frame : RuleFrame)
    (frames : List (ℤ × RuleFrame)) (ruleId : ℤ) :
    eventsOf srt engine ((channelId, frame) :: frames) ruleId =
      (engine.evaluate srt channelId frame.1 frame.2).2.filter
          (fun event => event.ruleId = ruleId) ++
        eventsOf srt (frameStep srt channelId engine frame) frames ruleId :=
  List.filter_append _ _

/-- **Rules with the same entries emit the same events.** -/
theorem eventsOf_of_agree {srt : PairSorter} {ruleId : ℤ} (frames : List (ℤ × RuleFrame))
    {a b : RuleEngine} (ha : ∀ channelId, WellNamed a channelId)
    (hb : ∀ channelId, WellNamed b channelId)
    (h : ∀ channelId, entryOf a channelId ruleId = entryOf b channelId ruleId) :
    eventsOf srt a frames ruleId = eventsOf srt b frames ruleId := by
  induction frames generalizing a b with
  | nil => rfl
  | cons entry frames ih =>
      obtain ⟨channelId, frame⟩ := entry
      have hrest := ih (wellNamed_frameStep srt ha channelId frame)
        (wellNamed_frameStep srt hb channelId frame) (entryOf_frameStep_of_agree h channelId frame)
      rw [eventsOf_cons, eventsOf_cons, evaluate_ruleEvents (ha channelId),
        evaluate_ruleEvents (hb channelId), h, hrest]

/-- **A change leaves the other rules alone** exactly if, on the channel that is reloaded, they are
as they are built. -/
theorem undisturbed_iff (srt : PairSorter) (engine : RuleEngine) (calls : List Call)
    (change : Change) :
    Undisturbed srt (calls.foldl (callStep srt) engine.loadRules) change ↔
      Unused (calls.foldl (callStep srt) engine.loadRules) change := by
  have hnamed : ∀ channelId, WellNamed (calls.foldl (callStep srt) engine.loadRules) channelId :=
    foldl_of_step (P := fun reached => ∀ channelId, WellNamed reached channelId)
      (fun _ call h => wellNamed_callStep h call) calls fun _ => wellNamed_loadRules engine
  generalize calls.foldl (callStep srt) engine.loadRules = reached at hnamed
  constructor
  · intro h channelId hreload ruleId hother henabled
    have hentry := (h ruleId hother henabled).1 channelId
    rw [entryOf_apply reached change hother, if_pos (Option.mem_def.mp hreload)] at hentry
    exact hentry.symm
  · intro h ruleId hother henabled
    have hentries : ∀ channelId,
        entryOf (reached.apply change) channelId ruleId = entryOf reached channelId ruleId := by
      intro channelId
      rw [entryOf_apply reached change hother]
      split
      · next hreload => exact (h channelId hreload ruleId hother henabled).symm
      · rfl
    exact ⟨hentries, fun frames =>
      eventsOf_of_agree frames (wellNamed_apply hnamed change) hnamed hentries⟩

def person : Detection where
  x1 := 0
  y1 := 0
  x2 := 1
  y2 := 1
  confidence := 1
  classId := 0
  className := "person"

/-- A rule on channel 0, which has seen one object. -/
def oneTrack : List Call :=
  [.change (.create { channelId := 0 } 0), .frame 0 ([person], { channelId := 0 })]

/-- The tracks of an entry. -/
def trackCount (entry : EvaluatorEntry) : ℕ :=
  match entry.evaluator with
  | .crossLine e => e.tracker.tracks.length
  | .regionIntrusion e => e.tracker.tracks.length
  | .counting e => e.tracker.tracks.length
  | .loitering e => e.tracker.tracks.length

/-- Another rule created on the channel makes the first forget its track. -/
theorem undisturbed_refuted :
    ¬ ∀ (srt : PairSorter) (engine : RuleEngine) (calls : List Call) (change : Change),
      Undisturbed srt (calls.foldl (callStep srt) engine.loadRules) change := by
  intro h
  have hentry := (h byIou {} oneTrack (.create { channelId := 0 } 0) 1 (by decide +kernel)
    (show (Table.find _ _).any _ = true by decide +kernel)).1 0
  have htracks := congrArg (Option.map trackCount) hentry
  revert htracks
  decide +kernel

end LoongNvr.Rules.RuleEngine
