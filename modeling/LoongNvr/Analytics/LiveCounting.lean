import LoongNvr.Analytics.CountedOnce
import LoongNvr.Network.RuleHandlers
import LoongNvr.Rules.FrameRuns
import LoongNvr.Rules.RuleStage
import LoongNvr.Support.Runs

/-!
# Analytics — LiveCounting

The events on their two ways into the statistics: the engine logs an event and publishes it, and
the handler of `rule.triggered` counts it; the thread of the aggregator asks the rule store for the
events since its last batch.  The two stores outlive the process.

* `readEvent_publishEvent`: the handler makes an event of the same channel and type of what is
  published.
* `aggregator_steps`: the steps of an aggregation in a row are `RunAggregation`.
* `countedOnce_of_everyStep`: between a step and the next each event has been counted once, in every
  run in which what is logged is delivered and nothing is purged.
-/

namespace LoongNvr.Analytics
open LoongNvr.Core LoongNvr.Rules LoongNvr.Network Support IouTracker
open AnalyticsAggregator (ofKind ingestEvent)

/-! ### From the engine to the handler -/

/-- `RuleEngine::PublishEvent`: what is published. -/
def publishEvent (event : RuleEvent) : Json :=
  .obj [
    ("rule_id", intJson event.ruleId),
    ("rule_name", .str event.ruleName),
    ("rule_type", .str event.ruleType.toString),
    ("channel_id", intJson event.channelId),
    ("timestamp", intJson event.timestamp),
    ("severity", .str event.severity.toString),
    ("direction", .str event.direction),
    ("count_value", intJson event.countValue),
    ("dwell_time_sec", intJson event.dwellTimeSec),
    ("trigger", .obj [
      ("class_name", .str event.triggerDetection.className),
      ("confidence", .num event.triggerDetection.confidence)])]

/-- The type that the handler makes of its name; a cross-line event where it knows none. -/
def handledType (typeStr : String) : RuleType :=
  if typeStr = "cross_line" then .crossLine
  else if typeStr = "region_intrusion" then .regionIntrusion
  else if typeStr = "object_counting" then .objectCounting
  else if typeStr = "loitering" then .loitering
  else .crossLine

/-- A detection that nothing was assigned to. -/
def noDetection : Detection :=
  { x1 := 0, y1 := 0, x2 := 0, y2 := 0, confidence := 0, classId := 0, className := "" }

/-- The event that the handler makes, or `none` where a value throws. -/
def readEvent (ruleData : Json) : Option RuleEvent := do
  let ruleId ← ruleData.value Json.getInt32 "rule_id" 0
  let ruleName ← ruleData.value Json.getStr "rule_name" ""
  let channelId ← ruleData.value Json.getInt32 "channel_id" 0
  let timestamp ← ruleData.value Json.getInt "timestamp" 0
  let typeStr ← ruleData.value Json.getStr "rule_type" ""
  some
    { ruleId := ruleId
      ruleName := ruleName
      ruleType := handledType typeStr
      channelId := channelId
      timestamp := timestamp
      triggerDetection := noDetection }

/-- The handler of `rule.triggered`, as far as the statistics go. -/
def ruleTriggered (config : AggregatorConfig) (store : AnalyticsStore) (ruleData : Json) :
    AnalyticsStore :=
  match readEvent ruleData with
  | some event => ingestEvent config store event
  | none => store

/-! ### The wiring -/

/-- A call of `RunAggregation` that is under way: the events that are not counted yet. -/
structure Batch where
  upToMs : ℤ
  rest : List RuleEvent
  processed : ℕ := 0

structure Wiring where
  engine : RuleEngine := {}
  aggregator : AnalyticsAggregator := {}
  /-- The handler is subscribed. -/
  subscribed : Bool := true
  /-- The events of a frame that are not logged yet. -/
  pending : List RuleEvent := []
  /-- The event that is logged and not published yet. -/
  logged : Option RuleEvent := none
  batch : Option Batch := none

inductive Action
  | createRule (body : Option Json) (now : ℤ)
  | updateRule (ruleId : ℤ) (body : Option Json) (now : ℤ)
  | deleteRule (ruleId : ℤ)
  | frame (frame : Frame) (now : ℤ)
  | log
  | publish
  | query (call : AggregationCall)
  | count
  | finish
  | unsubscribe
  | restart (config : AggregatorConfig)

namespace Wiring

variable (pairs : PairSorter) (newest : Sorter NewestFirst)

/-- A frame comes to the rule stage, unless the engine is still at another; its events are logged by
the steps that follow. -/
def evaluate (w : Wiring) (frame : Frame) (now : ℤ) : Wiring :=
  if w.pending = [] ∧ w.logged = none then
    let (engine, events) := RuleStage.evaluateFrame pairs w.engine frame now
    { w with engine := { engine with store := w.engine.store }, pending := events }
  else w

/-- `LogEvent` -/
def log (w : Wiring) : Wiring :=
  match w.pending, w.logged with
  | event :: rest, none =>
      { w with
        engine := { w.engine with store := w.engine.store.logEvent event }
        pending := rest
        logged := some event }
  | _, _ => w

/-- `PublishEvent`: the handler is called before it returns. -/
def publish (w : Wiring) : Wiring :=
  match w.logged with
  | some event =>
      { w with
        logged := none
        aggregator :=
          if w.subscribed then
            { w.aggregator with
              store := ruleTriggered w.aggregator.config w.aggregator.store (publishEvent event) }
          else w.aggregator }
  | none => w

/-- The query of `RunAggregation`. -/
def query (w : Wiring) (call : AggregationCall) : Wiring :=
  match w.batch with
  | none =>
      let events :=
        w.engine.store.queryEvents newest (-1) w.aggregator.lastAggregatedMs call.time 10000
      { w with batch := some ⟨call.time, events, 0⟩ }
  | some _ => w

/-- One turn of its loop. -/
def count (w : Wiring) : Wiring :=
  match w.batch with
  | some { upToMs, rest := event :: rest, processed } =>
      { w with
        aggregator :=
          { w.aggregator with
            store := ingestEvent w.aggregator.config w.aggregator.store event }
        batch := some ⟨upToMs, rest, processed + 1⟩ }
  | _ => w

/-- What it does behind the loop. -/
def finish (w : Wiring) : Wiring :=
  match w.batch with
  | some { upToMs, rest := [], processed } =>
      let aggregator :=
        if processed > 0 then { w.aggregator with lastAggregatedMs := upToMs } else w.aggregator
      { w with aggregator := aggregator.purge upToMs, batch := none }
  | _ => w

/-- A new process on the same stores. -/
def restart (w : Wiring) (config : AggregatorConfig) : Wiring where
  engine := { store := w.engine.store : RuleEngine }.loadRules
  aggregator := { store := w.aggregator.store, config := config }

def step (w : Wiring) : Action → Wiring
  | .createRule body now => { w with engine := (handleCreateRule w.engine body now).1 }
  | .updateRule ruleId body now =>
      { w with engine := (handleUpdateRule w.engine ruleId body now).1 }
  | .deleteRule ruleId => { w with engine := (w.engine.deleteRule ruleId).1 }
  | .frame frame now => w.evaluate pairs frame now
  | .log => w.log
  | .publish => w.publish
  | .query call => w.query newest call
  | .count => w.count
  | .finish => w.finish
  | .unsubscribe => { w with subscribed := false }
  | .restart config => w.restart config

/-- The turns of the loop over a batch. -/
theorem foldl_count (w : Wiring) (upToMs : ℤ) (events : List RuleEvent) (processed : ℕ) :
    (List.replicate events.length .count).foldl (step pairs newest)
        { w with batch := some ⟨upToMs, events, processed⟩ } =
      { w with
        aggregator :=
          { w.aggregator with
            store := events.foldl (ingestEvent w.aggregator.config) w.aggregator.store }
        batch := some ⟨upToMs, [], processed + events.length⟩ } := by
  induction events generalizing w processed with
  | nil => rfl
  | cons event events ih =>
      have hlength : processed + (event :: events).length = processed + 1 + events.length := by
        rw [List.length_cons]
        omega
      rw [hlength]
      exact ih { w with aggregator :=
        { w.aggregator with
          store := ingestEvent w.aggregator.config w.aggregator.store event } } (processed + 1)

/-- **The steps of an aggregation with nothing in between** are the call. -/
theorem aggregator_steps {w : Wiring} (hbatch : w.batch = none) (call : AggregationCall)
    {events : List RuleEvent}
    (hevents : w.engine.store.queryEvents newest (-1) w.aggregator.lastAggregatedMs call.time
      10000 = events) :
    ((.query call :: (List.replicate events.length .count ++ [.finish])).foldl
        (step pairs newest) w).aggregator =
      (w.aggregator.runAggregation newest w.engine.store call).2 := by
  have hquery : w.step pairs newest (.query call) =
      { w with batch := some ⟨call.time, events, 0⟩ } := by
    rw [step, query, hbatch, hevents]
  rw [List.foldl_cons, hquery, List.foldl_append, foldl_count, Nat.zero_add]
  simp only [AnalyticsAggregator.runAggregation, AnalyticsAggregator.aggregate, hevents,
    List.foldl_cons, List.foldl_nil, step, finish]
  split <;> rfl

/-! ### What is asked -/

/-- The logged events of a channel and a type. -/
def loggedEvents (w : Wiring) (channelId : ℤ) (type : RuleType) : ℕ :=
  w.engine.store.events.rows.countP fun row => ofKind channelId type (decodeEvent row.2)

/-- **Each logged event is counted once**, where none is on its way to the handler. -/
def CountedOnce (w : Wiring) : Prop :=
  w.logged = none → ∀ channelId type,
    w.aggregator.store.total channelId (ruleTypeToKey type) = w.loggedEvents channelId type

/-- Every event that is logged is delivered to the handler, and no purge finds an hour to delete. -/
def Delivers (w : Wiring) : Action → Prop
  | .publish => ∀ _ ∈ w.logged, w.subscribed = true
  | .restart _ => w.logged = none
  | .finish =>
      ∀ b ∈ w.batch, w.aggregator.config.retentionDays > 0 →
        ∀ row ∈ w.aggregator.store.hourly.rows, w.aggregator.cutoff b.upToMs ≤ row.2.hourStart
  | _ => True

instance (w : Wiring) : ∀ action, Decidable (w.Delivers action)
  | .publish => inferInstanceAs (Decidable (∀ _ ∈ w.logged, _))
  | .restart _ => inferInstanceAs (Decidable (w.logged = none))
  | .finish => inferInstanceAs (Decidable (∀ _ ∈ w.batch, _ → ∀ _ ∈ _, _))
  | .createRule _ _ | .updateRule _ _ _ | .deleteRule _ | .frame _ _ | .log | .query _ | .count
  | .unsubscribe => inferInstanceAs (Decidable True)

end Wiring

/-! ### What is published is read -/

theorem handledType_toString (type : RuleType) : handledType type.toString = type := by
  cases type <;> rfl

/-- **The handler's event** has the channel and the type of the one that is published. -/
theorem readEvent_publishEvent {event : RuleEvent} (h : IsChannel event.channelId) :
    ∃ event', readEvent (publishEvent event) = some event' ∧
      event'.channelId = event.channelId ∧ event'.ruleType = event.ruleType := by
  have hchannel : (publishEvent event).value Json.getInt32 "channel_id" 0 =
      some event.channelId := by
    have hbounds := (bmod_int32_eq_self_iff event.channelId).mpr ⟨by have := h.1; omega, h.2⟩
    exact (Json.getInt32_intCast _).trans (congrArg some hbounds)
  have htimestamp : (publishEvent event).value Json.getInt "timestamp" 0 =
      some event.timestamp := Json.getInt_intCast _
  refine ⟨{
      ruleId := event.ruleId.bmod 4294967296
      ruleName := event.ruleName
      ruleType := handledType event.ruleType.toString
      channelId := event.channelId
      timestamp := event.timestamp
      triggerDetection := noDetection }, ?_, rfl, handledType_toString event.ruleType⟩
  have hrule : (publishEvent event).value Json.getInt32 "rule_id" 0 =
      some (event.ruleId.bmod 4294967296) := Json.getInt32_intCast _
  rw [readEvent, hrule, hchannel, htimestamp]
  rfl

/-- What the handler counts of an event that is published. -/
theorem total_ruleTriggered (config : AggregatorConfig) (store : AnalyticsStore)
    {event : RuleEvent} (h : IsChannel event.channelId) (channelId : ℤ) (type : RuleType) :
    (ruleTriggered config store (publishEvent event)).total channelId (ruleTypeToKey type) =
      store.total channelId (ruleTypeToKey type) +
        if ofKind channelId type event then 1 else 0 := by
  obtain ⟨event', hread, hchannel, htype⟩ := readEvent_publishEvent h
  rw [ruleTriggered, hread]
  show (ingestEvent config store event').total channelId (ruleTypeToKey type) = _
  rw [AnalyticsAggregator.total_ingestEvent, ofKind, ofKind, hchannel, htype]

/-! ### Channels -/

/-- Every rule of the store has a channel. -/
def ChannelRules (store : RuleStore) : Prop := ∀ row ∈ store.rules.rows, IsChannel row.2.channelId

theorem isChannel_of_buildEvaluators {store : RuleStore} (h : ChannelRules store) {channelId : ℤ}
    (hne : RuleEngine.buildEvaluators store channelId ≠ []) : IsChannel channelId := by
  obtain ⟨entry, hentry⟩ := List.exists_mem_of_ne_nil _ hne
  obtain ⟨rule, hrule, -⟩ := List.mem_map.mp hentry
  obtain ⟨row, hrow, -⟩ := List.mem_map.mp hrule
  obtain ⟨hmem, hon⟩ := Table.mem_select.mp hrow
  simp only [RuleStore.enabledOn, Bool.and_eq_true, decide_eq_true_eq] at hon
  exact hon.1 ▸ h row hmem

/-- The engine's rules and the evaluators it has are those of channels. -/
structure ChannelEngine (engine : RuleEngine) : Prop where
  rules : ChannelRules engine.store
  cache : ∀ channelId, engine.entries channelId ≠ [] → IsChannel channelId

section Engine
variable {engine : RuleEngine}

theorem ChannelEngine.reload (h : ChannelEngine engine) {store : RuleStore}
    (hrules : ChannelRules store) (channelId : ℤ) :
    ChannelEngine (RuleEngine.reloadChannel { engine with store := store } channelId) := by
  refine ⟨hrules, fun other hne => ?_⟩
  rw [RuleEngine.entries_reloadChannel] at hne
  split at hne
  · next hsame => exact hsame ▸ isChannel_of_buildEvaluators hrules hne
  · exact h.cache other hne

/-- Another store with rules of channels. -/
theorem ChannelEngine.withStore (h : ChannelEngine engine) {store : RuleStore}
    (hrules : ChannelRules store) : ChannelEngine { engine with store := store } :=
  ⟨hrules, h.cache⟩

theorem ChannelEngine.createRule (h : ChannelEngine engine) {rule : AnalysisRule}
    (hrule : IsChannel rule.channelId) (now : ℤ) :
    ChannelEngine (engine.createRule rule now).1 := by
  have hrules : ChannelRules (engine.store.createRule rule now).1 := by
    intro row hrow
    rcases List.mem_append.mp hrow with hold | hnew
    · exact h.rules row hold
    · rw [List.mem_singleton.mp hnew]
      exact hrule
  rw [RuleEngine.createRule]
  dsimp only
  split
  · exact h.reload hrules rule.channelId
  · exact h.withStore hrules

theorem ChannelEngine.updateRule (h : ChannelEngine engine) {rule : AnalysisRule}
    (hrule : IsChannel rule.channelId) (now : ℤ) :
    ChannelEngine (engine.updateRule rule now).1 := by
  refine h.reload (fun row hrow => ?_) rule.channelId
  obtain ⟨old, hold, rfl⟩ := (engine.store.rules.mem_modify_rows).mp hrow
  rw [Table.modifyRow]
  split
  · exact hrule
  · exact h.rules old hold

theorem ChannelEngine.deleteRule (h : ChannelEngine engine) (ruleId : ℤ) :
    ChannelEngine (engine.deleteRule ruleId).1 := by
  rw [RuleEngine.deleteRule]
  split
  · exact h
  · next existing _ =>
      exact h.reload (fun row hrow => h.rules row (List.mem_filter.mp hrow).1) existing.channelId

/-- A request about a rule: the rules are those of channels as before, and no event is touched. -/
structure RuleRequest (engine engine' : RuleEngine) : Prop where
  rules : ChannelEngine engine → ChannelEngine engine'
  events : engine'.store.events = engine.store.events

theorem RuleRequest.refused (engine : RuleEngine) : RuleRequest engine engine := ⟨id, rfl⟩

theorem ruleRequest_createRule (engine : RuleEngine) (body : Option Json) (now : ℤ) :
    RuleRequest engine (handleCreateRule engine body now).1 := by
  rw [handleCreateRule]
  split
  · exact .refused engine
  · next rule hread =>
      split
      · exact .refused engine
      · next haccepted =>
          have hchannel : IsChannel rule.channelId := by
            obtain ⟨body, -, hread⟩ := Option.bind_eq_some_iff.mp hread
            exact ⟨not_lt.mp fun h => haccepted (.inr h), readNewRule_channelId hread⟩
          have hcreated : RuleRequest engine (engine.createRule rule now).1 := by
            refine ⟨fun h => h.createRule hchannel now, ?_⟩
            rw [RuleEngine.createRule]
            dsimp only
            split <;> rfl
          dsimp only
          split <;> exact hcreated

theorem ruleRequest_updateRule (engine : RuleEngine) (ruleId : ℤ) (body : Option Json) (now : ℤ) :
    RuleRequest engine (handleUpdateRule engine ruleId body now).1 := by
  rw [handleUpdateRule]
  split
  · exact .refused engine
  · next existing hfound =>
      split
      · exact .refused engine
      · next body =>
          split
          · exact .refused engine
          · next rule hread =>
              have hsame := (congrArg (·.2.channelId) hread).symm.trans
                (keepsChannel_readRuleUpdate body existing).2
              refine ⟨fun h => h.updateRule ?_ now, rfl⟩
              -- the rule that is there has a channel, and the update leaves it
              obtain ⟨row, hrow, rfl⟩ := Option.map_eq_some_iff.mp hfound
              have hmem := engine.store.rules.find_eq_some_iff.mp hrow
              rw [decodeRule_channelId] at hsame
              exact hsame ▸ h.rules _ hmem

theorem ruleRequest_deleteRule (engine : RuleEngine) (ruleId : ℤ) :
    RuleRequest engine (engine.deleteRule ruleId).1 := by
  refine ⟨fun h => h.deleteRule ruleId, ?_⟩
  rw [RuleEngine.deleteRule]
  split <;> rfl

/-- **The events of a frame are those of a channel**: others have no rules. -/
theorem ChannelEngine.evaluateFrame (h : ChannelEngine engine) (pairs : PairSorter) (frame : Frame)
    (now : ℤ) :
    (∀ event ∈ (RuleStage.evaluateFrame pairs engine frame now).2, IsChannel event.channelId) ∧
      ∀ channelId, (RuleStage.evaluateFrame pairs engine frame now).1.entries channelId ≠ [] →
        IsChannel channelId := by
  rw [RuleStage.evaluateFrame]
  split
  · constructor
    · intro event hevent
      rw [RuleEngine.evaluate_events] at hevent
      obtain ⟨entry, hentry, hevent⟩ := List.mem_flatMap.mp hevent
      obtain ⟨-, hchannel, -⟩ := RuleEngine.evaluateEntry_events pairs _ _ entry event hevent
      rw [hchannel]
      exact h.cache frame.channelId (List.ne_nil_of_mem hentry)
    · intro channelId hne
      rw [RuleEngine.entries_evaluate] at hne
      split at hne
      · next hsame =>
          rw [ne_eq, List.map_eq_nil_iff] at hne
          exact hsame ▸ h.cache frame.channelId hne
      · exact h.cache channelId hne
  · exact ⟨fun _ hevent => absurd hevent List.not_mem_nil, h.cache⟩

end Engine

/-! ### The invariant -/

/-- What the event that is logged and not published adds. -/
def inFlight (w : Wiring) (channelId : ℤ) (type : RuleType) : ℤ :=
  w.logged.elim 0 fun event => if ofKind channelId type event then 1 else 0

structure Inv (w : Wiring) : Prop where
  engine : ChannelEngine w.engine
  events : ∀ row ∈ w.engine.store.events.rows, IsChannel row.2.channelId
  pending : ∀ event ∈ w.pending, IsChannel event.channelId
  logged : ∀ event ∈ w.logged, IsChannel event.channelId
  batch : ∀ b ∈ w.batch, b.rest = []
  total : ∀ channelId type,
    w.aggregator.store.total channelId (ruleTypeToKey type) + inFlight w channelId type =
      w.loggedEvents channelId type

/-- **An aggregation finds no event**: it asks for channel -1. -/
theorem queryEvents_eq_nil_of_isChannel (newest : Sorter NewestFirst) {store : RuleStore}
    (h : ∀ row ∈ store.events.rows, IsChannel row.2.channelId) (start stop limit : ℤ) :
    store.queryEvents newest (-1) start stop limit = [] := by
  have hselect : store.events.select (RuleStore.loggedBetween (-1) start stop) = [] := by
    refine List.filter_eq_nil_iff.mpr fun row hrow hbetween => ?_
    simp only [RuleStore.loggedBetween, decide_eq_true_eq] at hbetween
    have := (h row hrow).1
    omega
  have hsorted : newest.sort (store.events.select (RuleStore.loggedBetween (-1) start stop)) = [] :=
    List.eq_nil_iff_forall_not_mem.mpr fun row hrow => by
      have := newest.mem.mp hrow
      rw [hselect] at this
      exact List.not_mem_nil this
  rw [RuleStore.queryEvents, hsorted, limitRows]
  split <;> simp

theorem inv_start : Inv {} where
  engine := ⟨fun _ h => absurd h List.not_mem_nil, fun _ h => absurd rfl h⟩
  events _ h := absurd h List.not_mem_nil
  pending _ h := absurd h List.not_mem_nil
  logged _ h := nomatch h
  batch _ h := nomatch h
  total _ _ := rfl

/-- A request about a rule. -/
theorem Inv.withEngine {w : Wiring} (h : Inv w) {engine : RuleEngine}
    (hrequest : RuleRequest w.engine engine) : Inv { w with engine := engine } := by
  refine ⟨hrequest.rules h.engine, ?_, h.pending, h.logged, h.batch, fun channelId type => ?_⟩
  · rw [hrequest.events]
    exact h.events
  · show _ = ((engine.store.events.rows.countP _ : ℕ) : ℤ)
    rw [hrequest.events]
    exact h.total channelId type

/-- One logged event more. -/
theorem loggedEvents_logEvent (w : Wiring) (event : RuleEvent) (channelId : ℤ) (type : RuleType) :
    (Wiring.loggedEvents
        { w with engine := { w.engine with store := w.engine.store.logEvent event } }
        channelId type : ℤ) =
      w.loggedEvents channelId type + if ofKind channelId type event then 1 else 0 := by
  have hkind : ofKind channelId type (decodeEvent (encodeEvent event)) =
      ofKind channelId type event := by
    rw [decodeEvent_encodeEvent]
    rfl
  simp only [Wiring.loggedEvents, RuleStore.logEvent, Table.insert, List.countP_append,
    List.countP_singleton, hkind]
  split <;> simp

theorem Inv.evaluate {w : Wiring} (h : Inv w) (pairs : PairSorter) (frame : Frame) (now : ℤ) :
    Inv (w.evaluate pairs frame now) := by
  rw [Wiring.evaluate]
  split
  · obtain ⟨hevents, hcache⟩ := h.engine.evaluateFrame pairs frame now
    exact ⟨⟨h.engine.rules, hcache⟩, h.events, hevents, h.logged, h.batch, h.total⟩
  · exact h

/-- **An event that is logged is on its way.** -/
theorem Inv.log {w : Wiring} (h : Inv w) : Inv w.log := by
  rw [Wiring.log]
  split
  · next event rest hpending hlogged =>
      obtain ⟨hevent, hrest⟩ := List.forall_mem_cons.mp (hpending ▸ h.pending)
      refine ⟨h.engine.withStore h.engine.rules, fun row hrow => ?_, hrest, ?_, h.batch,
        fun channelId type => ?_⟩
      · rcases List.mem_append.mp hrow with hold | hnew
        · exact h.events row hold
        · rw [List.mem_singleton.mp hnew]
          exact hevent
      · intro other hother
        obtain rfl := Option.some.inj hother
        exact hevent
      · have htotal := h.total channelId type
        rw [inFlight, hlogged, Option.elim_none, add_zero] at htotal
        have hcount := loggedEvents_logEvent w event channelId type
        have hflight : inFlight { w with logged := some event } channelId type =
            if ofKind channelId type event then 1 else 0 := rfl
        exact (congrArg₂ (· + ·) htotal hflight).trans hcount.symm
  · exact h

theorem Inv.publish {w : Wiring} (h : Inv w) (hsubscribed : ∀ _ ∈ w.logged, w.subscribed = true) :
    Inv w.publish := by
  rw [Wiring.publish]
  split
  · next event hlogged =>
      rw [if_pos (hsubscribed event hlogged)]
      refine ⟨h.engine, h.events, h.pending, ?_, h.batch, fun channelId type => ?_⟩
      · exact fun _ hnone => nomatch hnone
      · have htotal := h.total channelId type
        rw [inFlight, hlogged, Option.elim_some] at htotal
        have hcounted := total_ruleTriggered w.aggregator.config w.aggregator.store
          (h.logged event hlogged) channelId type
        exact (add_zero _).trans (hcounted.trans htotal)
  · exact h

/-- **An aggregation takes nothing up.** -/
theorem Inv.query {w : Wiring} (h : Inv w) (newest : Sorter NewestFirst) (call : AggregationCall) :
    Inv (w.query newest call) := by
  rw [Wiring.query]
  split
  · refine ⟨h.engine, h.events, h.pending, h.logged, fun b hb => ?_, h.total⟩
    obtain rfl := Option.some.inj hb
    exact queryEvents_eq_nil_of_isChannel newest h.events _ _ _
  · exact h

theorem Inv.count {w : Wiring} (h : Inv w) : Inv w.count := by
  rw [Wiring.count]
  split
  · next hbatch => exact absurd (h.batch _ hbatch) (List.cons_ne_nil _ _)
  · exact h

theorem Inv.finish {w : Wiring} (h : Inv w) (hpurge : w.Delivers .finish) : Inv w.finish := by
  rw [Wiring.finish]
  split
  · next upToMs processed hbatch =>
      refine ⟨h.engine, h.events, h.pending, h.logged, ?_, fun channelId type => ?_⟩
      · exact fun _ hnone => nomatch hnone
      · have hkept := hpurge _ hbatch
        have hsum : ∀ aggregator : AnalyticsAggregator, aggregator.store = w.aggregator.store →
            aggregator.config = w.aggregator.config →
            (aggregator.purge upToMs).store.total channelId (ruleTypeToKey type) =
              w.aggregator.store.total channelId (ruleTypeToKey type) := by
          rintro ⟨store, config, last⟩ rfl rfl
          exact @AnalyticsAggregator.total_purge ⟨w.aggregator.store, w.aggregator.config, last⟩
            upToMs hkept channelId (ruleTypeToKey type)
        refine Eq.trans (congrArg (· + _) ?_) (h.total channelId type)
        split <;> exact hsum _ rfl rfl
  · exact h

theorem Inv.restart {w : Wiring} (h : Inv w) (hlogged : w.logged = none)
    (config : AggregatorConfig) : Inv (w.restart config) := by
  refine ⟨⟨h.engine.rules, fun channelId hne => ?_⟩, h.events, ?_, ?_, ?_, fun channelId type => ?_⟩
  · have hentries := RuleEngine.entries_loadRules { store := w.engine.store } channelId
    exact isChannel_of_buildEvaluators h.engine.rules (hentries ▸ hne)
  · exact fun _ hnone => absurd hnone List.not_mem_nil
  · exact fun _ hnone => nomatch hnone
  · exact fun _ hnone => nomatch hnone
  · have htotal := h.total channelId type
    rw [inFlight, hlogged] at htotal
    exact htotal

/-- **Every step keeps the account.** -/
theorem Inv.step {w : Wiring} (h : Inv w) (pairs : PairSorter) (newest : Sorter NewestFirst)
    {action : Action} (haction : w.Delivers action) : Inv (w.step pairs newest action) := by
  cases action with
  | createRule body now => exact h.withEngine (ruleRequest_createRule w.engine body now)
  | updateRule ruleId body now =>
      exact h.withEngine (ruleRequest_updateRule w.engine ruleId body now)
  | deleteRule ruleId => exact h.withEngine (ruleRequest_deleteRule w.engine ruleId)
  | frame frame now => exact h.evaluate pairs frame now
  | log => exact h.log
  | publish => exact h.publish haction
  | query call => exact h.query newest call
  | count => exact h.count
  | finish => exact h.finish haction
  | unsubscribe => exact ⟨h.engine, h.events, h.pending, h.logged, h.batch, h.total⟩
  | restart config => exact h.restart haction config

/-- **Live and periodic analytics do not count twice**: whenever no event is on its way to the
handler, each event that was logged has been counted once, whatever the aggregations, requests and
restarts in between. -/
theorem countedOnce_of_everyStep (pairs : PairSorter) (newest : Sorter NewestFirst)
    {actions : List Action}
    (h : EveryStep (Wiring.step pairs newest) Wiring.Delivers {} actions) :
    Along (Wiring.step pairs newest) Wiring.CountedOnce {} actions := by
  have hinv := along_of_everyStep (fun w _ hw haction => hw.step pairs newest haction) inv_start h
  refine hinv.mono fun w hw hlogged channelId type => ?_
  have htotal := hw.total channelId type
  rwa [inFlight, hlogged, Option.elim_none, add_zero] at htotal

/-- A request for a rule about the whole picture of channel 3. -/
def hallRule : Json :=
  .obj [
    ("name", .str "hall"),
    ("type", .str "region_intrusion"),
    ("channel_id", .num 3),
    ("region", .obj [
      ("vertices", .arr ([⟨0, 0⟩, ⟨1, 0⟩, ⟨1, 1⟩, ⟨0, 1⟩].map pointJson))])]

/-- Somebody in the middle of the picture. -/
def hallPerson : Detection where
  x1 := 400
  y1 := 400
  x2 := 600
  y2 := 600
  confidence := 9 / 10
  classId := 0
  className := "person"

/-- A frame of the channel with them on it. -/
def hallFrame : Frame where
  channelId := 3
  pts := 2000000
  info := { width := 1000, height := 1000 }
  analysis := { hasResult := true, detections := [hallPerson] }
  origin := 0

/-- An aggregation between the log and the handler, a restart, and an aggregation after it. -/
def hallRun : List Action :=
  [.createRule (some hallRule) 1000, .frame hallFrame 0, .log, .query { upToMs := 3000 }, .publish,
    .count, .finish, .restart {}, .query { upToMs := 4000 }, .finish]

/-- The one event is counted once. -/
theorem countedOnce_hall :
    Along (Wiring.step byIou byTimestamp) Wiring.CountedOnce {} hallRun ∧
      (hallRun.foldl (Wiring.step byIou byTimestamp) {}).loggedEvents 3 .regionIntrusion = 1 :=
  ⟨countedOnce_of_everyStep byIou byTimestamp (by decide +kernel), by decide +kernel⟩

end LoongNvr.Analytics
