import LoongNvr.Rules.Evaluators
import LoongNvr.Rules.RuleStore

/-!
# Rules — RuleEngine

The engine: the rule store, a cache of configured evaluators for every channel, and the frame
loop.  The cache is filled from the store by `loadRules` and, one channel at a time, after every
change of a rule: the channel its argument names, or, for a deletion, the one the stored rule is
on.  An update that takes an enabled rule to another channel touches two.

* `entries_loadRules`, `entries_reloadChannel`: what the two ways of filling the cache put there.
* `entries_evaluate`, `evaluate_events`: a frame goes to each entry of its channel on its own.
* `coherent_loadRules`: the cache agrees with the store to begin with.
* `coherent_apply_iff`: a change keeps the agreement exactly when it is not such an update.
* `along_coherent_iff`: so the cache agrees all along a run exactly when the run has none.

The store is set, and the events returned are the ones published, in the same order.
-/

namespace LoongNvr.Rules
open LoongNvr.Core Support IouTracker

/-- Cached evaluator instance bound to a specific rule. -/
structure EvaluatorEntry where
  ruleId : ℤ
  rule : AnalysisRule
  evaluator : Evaluator
  lastEventTimeMs : ℤ := 0
  cooldownMs : ℤ := 60000

/-- The entry built for a rule. -/
def makeEntry (rule : AnalysisRule) : EvaluatorEntry where
  ruleId := rule.id
  rule := rule
  evaluator := (createEvaluator rule.type).configure rule
  cooldownMs := toInt32 (rule.cooldownSec * 1000)

/-- The cache: `evaluators_`. -/
abbrev EvaluatorCache := ℤ → Option (List EvaluatorEntry)

/-- The engine's state. -/
structure RuleEngine where
  store : RuleStore := {}
  evaluators : EvaluatorCache := fun _ => none

namespace RuleEngine

/-! ### Filling the cache -/

/-- One turn of the loop of `LoadRules`. -/
def loadRule (evaluators : EvaluatorCache) (rule : AnalysisRule) : EvaluatorCache :=
  if !rule.enabled then evaluators
  else Function.update evaluators rule.channelId
    (some ((evaluators rule.channelId).getD [] ++ [makeEntry rule]))

/-- `RuleEngine::LoadRules` -/
def loadRules (engine : RuleEngine) : RuleEngine :=
  { engine with evaluators := engine.store.listRules.foldl loadRule fun _ => none }

/-- `RuleEngine::BuildEvaluators` -/
def buildEvaluators (store : RuleStore) (channelId : ℤ) : List EvaluatorEntry :=
  (store.listEnabledRulesByChannel channelId).map makeEntry

/-- `RuleEngine::ReloadChannel` -/
def reloadChannel (engine : RuleEngine) (channelId : ℤ) : RuleEngine :=
  { engine with
    evaluators := Function.update engine.evaluators channelId
      (some (buildEvaluators engine.store channelId)) }

/-! ### Changing a rule -/

/-- `RuleEngine::CreateRule` -/
def createRule (engine : RuleEngine) (rule : AnalysisRule) (now : ℤ) : RuleEngine × ℤ :=
  let (store, id) := engine.store.createRule rule now
  let engine := { engine with store := store }
  if id > 0 then (engine.reloadChannel rule.channelId, id) else (engine, id)

/-- `RuleEngine::UpdateRule` -/
def updateRule (engine : RuleEngine) (rule : AnalysisRule) (now : ℤ) : RuleEngine × Bool :=
  let engine := { engine with store := engine.store.updateRule rule now }
  (engine.reloadChannel rule.channelId, true)

/-- `RuleEngine::DeleteRule` -/
def deleteRule (engine : RuleEngine) (ruleId : ℤ) : RuleEngine × Bool :=
  match engine.store.getRule ruleId with
  | none => (engine, false)
  | some existing =>
      let engine := { engine with store := engine.store.deleteRule ruleId }
      (engine.reloadChannel existing.channelId, true)

/-! ### Frames -/

/-- The test that skips an entry: its last event was too recent. -/
def CoolingDown (entry : EvaluatorEntry) (context : FrameContext) : Prop :=
  entry.lastEventTimeMs > 0 ∧ context.timestampMs - entry.lastEventTimeMs < entry.cooldownMs

instance (entry : EvaluatorEntry) (context : FrameContext) :
    Decidable (CoolingDown entry context) :=
  inferInstanceAs (Decidable (_ ∧ _))

/-- One turn of the loop of `Evaluate`. -/
def evaluateEntry (srt : PairSorter) (detections : List Detection) (context : FrameContext)
    (entry : EvaluatorEntry) : EvaluatorEntry × List RuleEvent :=
  if CoolingDown entry context then (entry, [])
  else
    let (evaluator, events) := entry.evaluator.evaluate srt detections context
    ({ entry with
        evaluator := evaluator
        lastEventTimeMs := events.foldl (fun _ event => event.timestamp) entry.lastEventTimeMs },
      events)

/-- `RuleEngine::Evaluate` -/
def evaluate (srt : PairSorter) (engine : RuleEngine) (channelId : ℤ)
    (detections : List Detection) (context : FrameContext) : RuleEngine × List RuleEvent :=
  match engine.evaluators channelId with
  | none => (engine, [])
  | some entries =>
      let results := entries.map (evaluateEntry srt detections context)
      let events := results.flatMap (·.2)
      ({ store := events.foldl RuleStore.logEvent engine.store
         evaluators := Function.update engine.evaluators channelId (some (results.map (·.1))) },
        events)

/-- The overlay of a line, with the counts of a counting evaluator. -/
def lineOverlay (rule : AnalysisRule) (showCounts : Bool) (evaluator : Evaluator) :
    RuleLineOverlay :=
  let ln : RuleLineOverlay :=
    { x1 := rule.line.start.x, y1 := rule.line.start.y, x2 := rule.line.stop.x,
      y2 := rule.line.stop.y, label := rule.name, showCounts := showCounts }
  match showCounts, evaluator.counts with
  | true, some (countAToB, countBToA) =>
      { ln with countAToB := countAToB, countBToA := countBToA }
  | _, _ => ln

/-- One turn of the loop of `BuildOverlayData`. -/
def overlayEntry (data : RuleOverlayData) (entry : EvaluatorEntry) : RuleOverlayData :=
  match entry.rule.type with
  | .crossLine =>
      { data with lines := data.lines ++ [lineOverlay entry.rule false entry.evaluator] }
  | .objectCounting =>
      { data with lines := data.lines ++ [lineOverlay entry.rule true entry.evaluator] }
  | .regionIntrusion | .loitering =>
      let reg : RuleRegionOverlay :=
        { label := entry.rule.name, alarmActive := false,
          vertices := entry.rule.region.vertices.map fun v => (v.x, v.y) }
      { data with regions := data.regions ++ [reg] }

/-- `RuleEngine::BuildOverlayData` -/
def buildOverlayData (engine : RuleEngine) (channelId : ℤ) : RuleOverlayData :=
  ((engine.evaluators channelId).getD []).foldl overlayEntry {}

/-! ### What the cache holds -/

/-- The entries of a channel, none where the map has no list. -/
def entries (engine : RuleEngine) (channelId : ℤ) : List EvaluatorEntry :=
  (engine.evaluators channelId).getD []

theorem foldl_loadRule (rules : List AnalysisRule) (evaluators : EvaluatorCache) (channelId : ℤ) :
    ((rules.foldl loadRule evaluators) channelId).getD [] =
      (evaluators channelId).getD [] ++
        (rules.filter fun rule => decide (rule.channelId = channelId) && rule.enabled).map
          makeEntry := by
  induction rules generalizing evaluators with
  | nil => simp
  | cons rule rules ih =>
      rw [List.foldl_cons, ih]
      by_cases hen : rule.enabled = true
      · by_cases hch : rule.channelId = channelId
        · subst hch
          simp [loadRule, hen]
        · have hother : Function.update evaluators rule.channelId
              (some ((evaluators rule.channelId).getD [] ++ [makeEntry rule])) channelId =
                evaluators channelId := Function.update_of_ne (Ne.symm hch) _ _
          simp [loadRule, hen, hch, hother]
      · simp [loadRule, hen]

/-- `LoadRules` puts the enabled rules of every channel there, in id order. -/
theorem entries_loadRules (engine : RuleEngine) (channelId : ℤ) :
    engine.loadRules.entries channelId = buildEvaluators engine.store channelId := by
  show ((engine.store.listRules.foldl loadRule fun _ => none) channelId).getD [] = _
  rw [foldl_loadRule, Option.getD_none, List.nil_append, RuleStore.listRules, List.filter_map,
    buildEvaluators, RuleStore.listEnabledRulesByChannel, Table.select]
  congr 3
  funext row
  simp [RuleStore.enabledOn]

theorem entries_reloadChannel (engine : RuleEngine) (channelId other : ℤ) :
    (engine.reloadChannel channelId).entries other =
      if other = channelId then buildEvaluators engine.store channelId
      else engine.entries other := by
  simp only [entries, reloadChannel]
  by_cases e : other = channelId
  · subst e
    simp
  · simp [e]

/-- **A frame goes to each entry of its channel** on its own, and to no other channel's. -/
theorem entries_evaluate (srt : PairSorter) (engine : RuleEngine) (channelId other : ℤ)
    (detections : List Detection) (context : FrameContext) :
    (engine.evaluate srt channelId detections context).1.entries other =
      if other = channelId then
        (engine.entries channelId).map fun e => (evaluateEntry srt detections context e).1
      else engine.entries other := by
  simp only [evaluate, entries]
  cases h : engine.evaluators channelId with
  | none =>
      by_cases e : other = channelId
      · subst e
        simp [h]
      · simp [e]
  | some list =>
      by_cases e : other = channelId
      · subst e
        simp
      · simp [e]

/-- The events of a frame are those of the entries, in their order. -/
theorem evaluate_events (srt : PairSorter) (engine : RuleEngine) (channelId : ℤ)
    (detections : List Detection) (context : FrameContext) :
    (engine.evaluate srt channelId detections context).2 =
      (engine.entries channelId).flatMap fun e => (evaluateEntry srt detections context e).2 := by
  simp only [evaluate, entries]
  cases h : engine.evaluators channelId with
  | none => rfl
  | some list => simp [List.flatMap_map]

end RuleEngine

end LoongNvr.Rules

/-! ### The cache and the store -/

namespace LoongNvr.Rules.RuleEngine
open LoongNvr.Core Support

/-- A call that changes a rule; `now` is the time of the call. -/
inductive Change
  | create (rule : AnalysisRule) (now : ℤ)
  | update (rule : AnalysisRule) (now : ℤ)
  | delete (ruleId : ℤ)

/-- The engine after the call. -/
def apply (engine : RuleEngine) : Change → RuleEngine
  | .create rule now => (engine.createRule rule now).1
  | .update rule now => (engine.updateRule rule now).1
  | .delete ruleId => (engine.deleteRule ruleId).1

/-- The rules cached for a channel, with the ids they are cached under. -/
def cachedRules (engine : RuleEngine) (channelId : ℤ) : List (ℤ × AnalysisRule) :=
  (engine.entries channelId).map fun e => (e.ruleId, e.rule)

/-- The enabled rules stored for a channel, in id order. -/
def storedRules (store : RuleStore) (channelId : ℤ) : List (ℤ × AnalysisRule) :=
  (store.listEnabledRulesByChannel channelId).map fun rule => (rule.id, rule)

/-- The cache of every channel is what the store has for it. -/
def Coherent (engine : RuleEngine) : Prop :=
  ∀ channelId, engine.cachedRules channelId = storedRules engine.store channelId

/-- The call does not take an enabled rule to another channel. -/
def StaysOnChannel (engine : RuleEngine) : Change → Prop
  | .update rule _ => ∀ row, engine.store.rules.find rule.id = some row → row.enabled = true →
      row.channelId = rule.channelId
  | _ => True

/-! ### Filling the cache -/

theorem map_buildEvaluators (store : RuleStore) (channelId : ℤ) :
    (buildEvaluators store channelId).map (fun e => (e.ruleId, e.rule)) =
      storedRules store channelId := by
  simp only [buildEvaluators, storedRules, List.map_map]
  rfl

/-- `LoadRules` makes the cache agree, whatever it held. -/
theorem coherent_loadRules (engine : RuleEngine) : Coherent engine.loadRules := by
  intro channelId
  rw [cachedRules, entries_loadRules, map_buildEvaluators]
  rfl

theorem cachedRules_reloadChannel (engine : RuleEngine) (channelId other : ℤ) :
    (engine.reloadChannel channelId).cachedRules other =
      if other = channelId then storedRules engine.store channelId
      else engine.cachedRules other := by
  simp only [cachedRules]
  rw [entries_reloadChannel]
  split
  · exact map_buildEvaluators _ _
  · rfl

/-- After a change of the store and a reload of one channel, the cache agrees exactly when the
change left the other channels' rules as they were. -/
theorem coherent_reload_iff {engine : RuleEngine} (h : Coherent engine) (store : RuleStore)
    (channelId : ℤ) :
    Coherent ({ engine with store := store }.reloadChannel channelId) ↔
      ∀ other, other ≠ channelId → storedRules store other = storedRules engine.store other := by
  have hcached : ∀ other,
      ({ engine with store := store }.reloadChannel channelId).cachedRules other =
      if other = channelId then storedRules store channelId
      else storedRules engine.store other := fun other => by
    rw [cachedRules_reloadChannel]
    split
    · rfl
    · exact h other
  constructor
  · intro hco other hne
    have := hco other
    rw [hcached, if_neg hne] at this
    exact this.symm
  · intro hsame other
    rw [hcached]
    split
    · next e => exact e ▸ rfl
    · next hne => exact (hsame other hne).symm

/-! ### The rules of a channel after a statement -/

theorem storedRules_eq (store : RuleStore) (channelId : ℤ) :
    storedRules store channelId =
      (store.rules.select (RuleStore.enabledOn channelId)).map
        fun row => (row.1, decodeRule row) := by
  simp [storedRules, RuleStore.listEnabledRulesByChannel, List.map_map, Function.comp_def]

theorem enabledOn_eq_false {channelId id : ℤ} {row : RuleRow}
    (h : row.enabled = true → row.channelId ≠ channelId) :
    RuleStore.enabledOn channelId (id, row) = false := by
  simp only [RuleStore.enabledOn]
  by_cases e : row.enabled = true
  · simp [h e]
  · simp [e]

theorem storedRules_createRule (store : RuleStore) (rule : AnalysisRule) (now : ℤ) {other : ℤ}
    (h : other ≠ rule.channelId) :
    storedRules (store.createRule rule now).1 other = storedRules store other := by
  have hnot : RuleStore.enabledOn other (store.rules.seq + 1, encodeRule rule now) = false :=
    enabledOn_eq_false fun _ => h.symm
  rw [storedRules_eq, storedRules_eq]
  simp only [RuleStore.createRule]
  rw [Table.select_insert, hnot]
  simp

theorem storedRules_deleteRule (store : RuleStore) {ruleId other : ℤ}
    (h : ∀ row, store.rules.find ruleId = some row → row.channelId ≠ other) :
    storedRules (store.deleteRule ruleId) other = storedRules store other := by
  rw [storedRules_eq, storedRules_eq]
  simp only [RuleStore.deleteRule]
  rw [Table.select_delete fun row hrow => enabledOn_eq_false fun _ => h row hrow]

theorem storedRules_updateRule (store : RuleStore) (rule : AnalysisRule) (now : ℤ) {other : ℤ}
    (hne : other ≠ rule.channelId)
    (h : ∀ row, store.rules.find rule.id = some row → row.enabled = true → row.channelId ≠ other) :
    storedRules (store.updateRule rule now) other = storedRules store other := by
  rw [storedRules_eq, storedRules_eq]
  simp only [RuleStore.updateRule]
  rw [Table.select_modify fun row hrow => ⟨enabledOn_eq_false (h row hrow),
    enabledOn_eq_false fun _ => hne.symm⟩]

/-- An enabled rule moved to another channel is gone from the rules of the old one. -/
theorem storedRules_updateRule_ne (store : RuleStore) (rule : AnalysisRule) (now : ℤ)
    {row : RuleRow} (hfind : store.rules.find rule.id = some row) (hen : row.enabled = true)
    (hne : row.channelId ≠ rule.channelId) :
    storedRules (store.updateRule rule now) row.channelId ≠
      storedRules store row.channelId := by
  intro heq
  have hold : (rule.id, decodeRule (rule.id, row)) ∈ storedRules store row.channelId := by
    rw [storedRules_eq]
    exact List.mem_map.mpr ⟨(rule.id, row), Table.mem_select.mpr
      ⟨store.rules.find_eq_some_iff.mp hfind, by simp [RuleStore.enabledOn, hen]⟩, rfl⟩
  rw [← heq, storedRules_eq] at hold
  obtain ⟨row', hrow', heq'⟩ := List.mem_map.mp hold
  obtain ⟨hmem, hon⟩ := Table.mem_select.mp hrow'
  obtain ⟨old, -, rfl⟩ := Table.mem_modify_rows.mp hmem
  have hid : old.1 = rule.id := by simpa using congrArg Prod.fst heq'
  -- the row with this id now names the new channel
  simp only [Table.modifyRow, if_pos hid, RuleStore.enabledOn, encodeRule] at hon
  exact hne (by simpa using (Bool.and_eq_true_iff.mp hon).1 : rule.channelId = row.channelId).symm

/-! ### The cache after a call -/

/-- **One call** keeps the agreement exactly when it stays on the rule's channel. -/
theorem coherent_apply_iff (engine : RuleEngine) (change : Change) (h : Coherent engine) :
    Coherent (engine.apply change) ↔ engine.StaysOnChannel change := by
  cases change with
  | create rule now =>
      -- a new id is positive, so the channel is reloaded
      have hpos : engine.store.rules.seq + 1 > 0 := by
        have := engine.store.rules.seq_nonneg
        omega
      have happly : engine.apply (.create rule now) =
          { engine with store := (engine.store.createRule rule now).1 }.reloadChannel
            rule.channelId := by
        simp [apply, createRule, RuleStore.createRule, hpos]
      rw [happly, coherent_reload_iff h]
      exact ⟨fun _ => trivial, fun _ other hne => storedRules_createRule _ _ _ hne⟩
  | update rule now =>
      show Coherent ({ engine with store := engine.store.updateRule rule now }.reloadChannel
        rule.channelId) ↔ _
      rw [coherent_reload_iff h]
      constructor
      · intro hsame row hfind hen
        by_contra hne
        exact storedRules_updateRule_ne engine.store rule now hfind hen hne (hsame _ hne)
      · intro hstay other hne
        exact storedRules_updateRule _ _ _ hne fun row hfind hen e =>
          hne (e.symm.trans (hstay row hfind hen))
  | delete ruleId =>
      show Coherent (engine.deleteRule ruleId).1 ↔ True
      rw [iff_true]
      simp only [deleteRule]
      cases hget : engine.store.getRule ruleId with
      | none => exact h
      | some existing =>
          -- the channel reloaded is that of the row deleted
          obtain ⟨row, hfind, rfl⟩ := Option.map_eq_some_iff.mp hget
          refine (coherent_reload_iff h _ _).mpr fun other hne =>
            storedRules_deleteRule _ fun row' hfind' e => hne ?_
          obtain rfl : row = row' := Option.some.inj (hfind.symm.trans hfind')
          rw [decodeRule_channelId, ← e]

/-- **The cache agrees with the store all along a run** from `LoadRules` exactly when no update
of the run takes an enabled rule to another channel. -/
theorem along_coherent_iff (engine : RuleEngine) (changes : List Change) :
    Along apply Coherent engine.loadRules changes ↔
      EveryStep apply StaysOnChannel engine.loadRules changes :=
  along_iff_everyStep coherent_apply_iff (coherent_loadRules engine)

/-- An enabled rule created on channel 0 and moved to channel 1. -/
def moveRule : List Change :=
  [.create { channelId := 0 } 0, .update { id := 1, channelId := 1 } 0]

/-- Channel 0 keeps evaluating the rule. -/
theorem not_along_coherent : ¬ Along apply Coherent (loadRules {}) moveRule := by
  intro h
  have hlast : (cachedRules (moveRule.foldl apply (loadRules {})) 0).length =
      (storedRules (moveRule.foldl apply (loadRules {})).store 0).length :=
    congrArg List.length (h.last 0)
  revert hlast
  decide +kernel

end LoongNvr.Rules.RuleEngine
