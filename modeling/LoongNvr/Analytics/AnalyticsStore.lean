import LoongNvr.Rules.RuleStore

/-!
# Analytics — AnalyticsStore

The SQLite store of the analytics: counts of events by hour, channel and rule type, and the places
where objects were detected.  Statements succeed.

* `upsertHourly`: adds to the row of an hour, a channel and a type, or makes it.
* `total`: `SUM(event_count)` over the rows of a channel and a type.
* `total_upsertHourly`: what is added is added to that sum, and to no other.
* `ingestEvent`: one event.
* `aggregate`, `purge`, `runAggregation`: a batch of events since the last one, and what is too old
  after it.
* `total_ingestEvent`, `total_aggregate`, `total_purge`: what they add to the sums of the store.
-/

namespace LoongNvr.Analytics
open Support
open LoongNvr.Rules (cStr)

/-- A row of `analytics_hourly`, its id apart. -/
structure HourlyAggregate where
  hourStart : ℤ := 0
  channelId : ℤ := -1
  ruleType : String := ""
  eventCount : ℤ := 0
  countSum : ℤ := 0

/-- A row of `detection_positions`, its id apart. -/
structure DetectionPosition where
  channelId : ℤ
  timestamp : ℤ
  centerX : ℚ
  centerY : ℚ

/-- The database. -/
structure AnalyticsStore where
  hourly : Table HourlyAggregate := .empty
  positions : Table DetectionPosition := .empty

/-- The unique index `idx_hourly_unique`. -/
def HourlyAggregate.conflicts (agg : HourlyAggregate) (row : ℤ × HourlyAggregate) : Bool :=
  row.2.hourStart = agg.hourStart ∧ row.2.channelId = agg.channelId ∧
    row.2.ruleType = agg.ruleType

/-- The `UPDATE` of a conflict. -/
def HourlyAggregate.add (agg excluded : HourlyAggregate) : HourlyAggregate :=
  { agg with
    eventCount := agg.eventCount + excluded.eventCount
    countSum := agg.countSum + excluded.countSum }

namespace AnalyticsStore

/-- `AnalyticsStore::UpsertHourly` -/
def upsertHourly (store : AnalyticsStore) (agg : HourlyAggregate) : AnalyticsStore :=
  let excluded := { agg with ruleType := cStr agg.ruleType }
  match store.hourly.select excluded.conflicts with
  | [] => { store with hourly := store.hourly.insert excluded }
  | (id, _) :: _ => { store with hourly := store.hourly.modify id (·.add excluded) }

/-- `AnalyticsStore::LogDetectionPosition` -/
def logDetectionPosition (store : AnalyticsStore) (channelId timestamp : ℤ)
    (centerX centerY : ℚ) : AnalyticsStore :=
  let position : DetectionPosition :=
    { channelId := channelId, timestamp := timestamp, centerX := centerX, centerY := centerY }
  { store with positions := store.positions.insert position }

/-- `AnalyticsStore::PurgeOlderThan`: the number of rows that go, and the store without them. -/
def purgeOlderThan (store : AnalyticsStore) (timestampMs : ℤ) : ℕ × AnalyticsStore :=
  let hourly := store.hourly.deleteWhere fun row => row.hourStart < timestampMs
  let positions := store.positions.deleteWhere fun row => row.timestamp < timestampMs
  (store.hourly.rows.length - hourly.rows.length +
      (store.positions.rows.length - positions.rows.length),
    { hourly := hourly, positions := positions })

/-- `SUM(event_count) … WHERE channel_id = ? AND rule_type = ?` -/
def total (store : AnalyticsStore) (channelId : ℤ) (ruleType : String) : ℤ :=
  ((store.hourly.select fun row => row.2.channelId = channelId ∧ row.2.ruleType = ruleType).map
    (·.2.eventCount)).sum

/-! ### Sums -/

variable {store : AnalyticsStore} {channelId : ℤ} {ruleType : String}

/-- The part of a row in a sum. -/
def share (channelId : ℤ) (ruleType : String) (row : HourlyAggregate) : ℤ :=
  if row.channelId = channelId ∧ row.ruleType = ruleType then row.eventCount else 0

theorem total_eq (store : AnalyticsStore) (channelId : ℤ) (ruleType : String) :
    store.total channelId ruleType =
      (store.hourly.rows.map fun row => share channelId ruleType row.2).sum := by
  have h := List.sum_map_ite
    (fun row : ℤ × HourlyAggregate => row.2.channelId = channelId ∧ row.2.ruleType = ruleType)
    (·.2.eventCount) (fun _ => 0) store.hourly.rows
  rw [List.sum_map_zero, add_zero] at h
  exact h.symm

/-- **What is added** is added to the sum of its channel and type, and to no other. -/
theorem total_upsertHourly (store : AnalyticsStore) (agg : HourlyAggregate) (channelId : ℤ)
    (ruleType : String) :
    (store.upsertHourly agg).total channelId ruleType = store.total channelId ruleType +
      share channelId ruleType { agg with ruleType := cStr agg.ruleType } := by
  unfold upsertHourly
  dsimp only
  generalize { agg with ruleType := cStr agg.ruleType } = excluded
  rw [total_eq store]
  split
  · rw [total_eq]
    simp [Table.insert]
  · rename_i id row _ hselect
    obtain ⟨hmem, hconflicts⟩ := Table.mem_select.mp (hselect ▸ List.mem_cons_self)
    simp only [HourlyAggregate.conflicts, decide_eq_true_eq] at hconflicts
    obtain ⟨-, hchannel, htype⟩ := hconflicts
    rw [total_eq]
    refine Table.sum_modify ((Table.find_eq_some_iff _).mpr hmem) ?_
    simp only [share, HourlyAggregate.add, hchannel, htype]
    split <;> simp

theorem total_logDetectionPosition (centerX centerY : ℚ) (c timestamp : ℤ) :
    (store.logDetectionPosition c timestamp centerX centerY).total channelId ruleType =
      store.total channelId ruleType := rfl

end AnalyticsStore

end LoongNvr.Analytics

/-! ### The aggregator

`AnalyticsAggregator` with its store: events of the rule store are counted by the hour.  Both
stores are set.
-/

namespace LoongNvr.Analytics
open Support
open LoongNvr.Rules

/-- Configuration for the aggregator. -/
structure AggregatorConfig where
  retentionDays : ℤ := 90
  logDetectionPositions : Bool := true

structure AnalyticsAggregator where
  store : AnalyticsStore := {}
  config : AggregatorConfig := {}
  lastAggregatedMs : ℤ := 0

/-- A call of `RunAggregation` with the time on the clock, which has passed 1970. -/
structure AggregationCall where
  upToMs : ℤ := 0
  now : ℤ := 1
  now_pos : 0 < now := by decide

/-- The time a call aggregates up to. -/
def AggregationCall.time (call : AggregationCall) : ℤ :=
  if call.upToMs ≤ 0 then call.now else call.upToMs

theorem AggregationCall.time_pos (call : AggregationCall) : 0 < call.time := by
  have := call.now_pos
  unfold time
  split <;> omega

/-- `AnalyticsAggregator::RuleTypeToKey` -/
def ruleTypeToKey : RuleType → String
  | .crossLine => "cross_line"
  | .regionIntrusion => "region_intrusion"
  | .objectCounting => "object_counting"
  | .loitering => "loitering"

def kHourMs : ℤ := 3600 * 1000

/-- `AnalyticsAggregator::AlignToHour` -/
def alignToHour (timestampMs : ℤ) : ℤ := timestampMs.tdiv kHourMs * kHourMs

namespace AnalyticsAggregator

/-- `AnalyticsAggregator::IngestEvent` -/
def ingestEvent (config : AggregatorConfig) (store : AnalyticsStore) (event : RuleEvent) :
    AnalyticsStore :=
  let store := store.upsertHourly
    { hourStart := alignToHour event.timestamp
      channelId := event.channelId
      ruleType := ruleTypeToKey event.ruleType
      eventCount := 1
      countSum := event.countValue }
  let det := event.triggerDetection
  let cx := (det.x1 + det.x2) / 2
  let cy := (det.y1 + det.y2) / 2
  if config.logDetectionPositions ∧ (cx > 0 ∨ cy > 0) then
    store.logDetectionPosition event.channelId event.timestamp cx cy
  else store

/-- The part of `RunAggregation` up to the purge: the number of events, and the aggregator with
them. -/
def aggregate (srt : Sorter NewestFirst) (rules : RuleStore) (upToMs : ℤ)
    (agg : AnalyticsAggregator) : ℕ × AnalyticsAggregator :=
  let events := rules.queryEvents srt (-1) agg.lastAggregatedMs upToMs 10000
  let store := events.foldl (ingestEvent agg.config) agg.store
  (events.length,
    { agg with
      store := store
      lastAggregatedMs := if events.length > 0 then upToMs else agg.lastAggregatedMs })

/-- What is older than this goes. -/
def cutoff (agg : AnalyticsAggregator) (upToMs : ℤ) : ℤ :=
  upToMs - agg.config.retentionDays * 86400 * 1000

/-- The purge at the end of `RunAggregation`. -/
def purge (upToMs : ℤ) (agg : AnalyticsAggregator) : AnalyticsAggregator :=
  if agg.config.retentionDays > 0 then
    { agg with store := (agg.store.purgeOlderThan (agg.cutoff upToMs)).2 }
  else agg

/-- `AnalyticsAggregator::RunAggregation` -/
def runAggregation (srt : Sorter NewestFirst) (rules : RuleStore) (call : AggregationCall)
    (agg : AnalyticsAggregator) : ℕ × AnalyticsAggregator :=
  let (processed, agg) := agg.aggregate srt rules call.time
  (processed, agg.purge call.time)

/-! ### Sums -/

variable {channelId : ℤ} {type : RuleType}

/-- An event of the channel and of the type. -/
def ofKind (channelId : ℤ) (type : RuleType) (event : RuleEvent) : Bool :=
  event.channelId = channelId ∧ event.ruleType = type

theorem ruleTypeToKey_injective : Function.Injective ruleTypeToKey := by
  intro a b h
  cases a <;> cases b <;> first
    | rfl
    | exact absurd h (by decide)

theorem cStr_ruleTypeToKey (type : RuleType) : cStr (ruleTypeToKey type) = ruleTypeToKey type := by
  cases type <;> decide +kernel

/-- **An event** is counted with those of its channel and type. -/
theorem total_ingestEvent (config : AggregatorConfig) (store : AnalyticsStore) (event : RuleEvent)
    (channelId : ℤ) (type : RuleType) :
    (ingestEvent config store event).total channelId (ruleTypeToKey type) =
      store.total channelId (ruleTypeToKey type) + if ofKind channelId type event then 1 else 0 := by
  have hcount : (store.upsertHourly
      { hourStart := alignToHour event.timestamp
        channelId := event.channelId
        ruleType := ruleTypeToKey event.ruleType
        eventCount := 1
        countSum := event.countValue }).total channelId (ruleTypeToKey type) =
      store.total channelId (ruleTypeToKey type) +
        if ofKind channelId type event then 1 else 0 := by
    rw [AnalyticsStore.total_upsertHourly]
    simp only [AnalyticsStore.share, ofKind, cStr_ruleTypeToKey, ruleTypeToKey_injective.eq_iff,
      decide_eq_true_eq]
  unfold ingestEvent
  dsimp only
  split
  · rw [AnalyticsStore.total_logDetectionPosition, hcount]
  · exact hcount

theorem total_foldl_ingestEvent (config : AggregatorConfig) (events : List RuleEvent)
    (store : AnalyticsStore) :
    (events.foldl (ingestEvent config) store).total channelId (ruleTypeToKey type) =
      store.total channelId (ruleTypeToKey type) + events.countP (ofKind channelId type) := by
  induction events generalizing store with
  | nil => simp
  | cons event events ih =>
      rw [List.foldl_cons, ih, total_ingestEvent, List.countP_cons]
      split
      · push_cast
        omega
      · omega

/-- **A purge** that finds no hour to delete leaves the sums as they are. -/
theorem total_purge {agg : AnalyticsAggregator} {upToMs : ℤ}
    (h : agg.config.retentionDays > 0 → ∀ row ∈ agg.store.hourly.rows,
      agg.cutoff upToMs ≤ row.2.hourStart) (c : ℤ) (key : String) :
    (agg.purge upToMs).store.total c key = agg.store.total c key := by
  rw [purge]
  split
  · next hretention =>
      have hkept : ∀ row ∈ agg.store.hourly.rows,
          (!decide (row.2.hourStart < agg.cutoff upToMs)) = true := by
        intro row hrow
        simpa using h hretention row hrow
      rw [AnalyticsStore.total_eq, AnalyticsStore.total_eq]
      exact congrArg (fun rows : List (ℤ × HourlyAggregate) =>
        (rows.map fun row => AnalyticsStore.share c key row.2).sum) (List.filter_eq_self.mpr hkept)
  · rfl

/-- **A batch** counts the events that the query gives. -/
theorem total_aggregate (srt : Sorter NewestFirst) (rules : RuleStore) (upToMs : ℤ)
    (agg : AnalyticsAggregator) :
    (agg.aggregate srt rules upToMs).2.store.total channelId (ruleTypeToKey type) =
      agg.store.total channelId (ruleTypeToKey type) +
        (rules.queryEvents srt (-1) agg.lastAggregatedMs upToMs 10000).countP
          (ofKind channelId type) :=
  total_foldl_ingestEvent agg.config _ agg.store

end AnalyticsAggregator

end LoongNvr.Analytics
