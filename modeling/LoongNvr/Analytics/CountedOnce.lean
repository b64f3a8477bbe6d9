import LoongNvr.Analytics.AnalyticsStore
import LoongNvr.Support.Runs
import LoongNvr.Support.Spans

/-!
# Analytics — CountedOnce

How often a logged event is counted over a run of aggregations.  The query for the events of all
channels asks for channel -1, both its times are included, and it stops after 10000 events.

* `UpTo`: where the aggregator stands between calls.
* `total_run`: the sums after a run, by the spans from one call's time to the next.
* `lost`, `twice`: events that no call counts, and those that one more call counts.
* `total_iff`: exactly when a sum is the number of the events.
-/

namespace LoongNvr.Analytics
open Support
open LoongNvr.Rules
open AnalyticsAggregator (ofKind)

variable {srt : Sorter NewestFirst} {rules : RuleStore} {agg : AnalyticsAggregator}
  {call : AggregationCall} {channelId : ℤ} {type : RuleType} {w : ℤ}

/-! ### Runs -/

/-- A store in which these events were logged. -/
def logged (events : List RuleEvent) : RuleStore := events.foldl RuleStore.logEvent {}

/-- The aggregator after a call. -/
def step (srt : Sorter NewestFirst) (rules : RuleStore) (agg : AnalyticsAggregator)
    (call : AggregationCall) : AnalyticsAggregator := (agg.runAggregation srt rules call).2

/-- A new aggregator after a run of calls. -/
def run (srt : Sorter NewestFirst) (config : AggregatorConfig) (rules : RuleStore)
    (calls : List AggregationCall) : AnalyticsAggregator :=
  calls.foldl (step srt rules) { config := config }

/-- The purge at the end of the call finds no hour to delete. -/
def PurgesNothing (srt : Sorter NewestFirst) (rules : RuleStore) (agg : AnalyticsAggregator)
    (call : AggregationCall) : Prop :=
  agg.config.retentionDays > 0 →
    ∀ row ∈ (agg.aggregate srt rules call.time).2.store.hourly.rows,
      agg.cutoff call.time ≤ row.2.hourStart

/-! ### Queries -/

theorem queryEvents_limit (srt : Sorter NewestFirst) (rules : RuleStore) (c start stop : ℤ) :
    rules.queryEvents srt c start stop 10000 =
      (rules.queryEvents srt c start stop (-1)).take 10000 := by
  simp only [RuleStore.queryEvents, limitRows, ← List.map_take]
  rfl

theorem rows_logged (events : List RuleEvent) :
    (logged events).events.rows.map (·.2) = events.map encodeEvent := by
  have hrows : ∀ store : RuleStore, (events.foldl RuleStore.logEvent store).events.rows.map (·.2) =
      store.events.rows.map (·.2) ++ events.map encodeEvent := by
    induction events with
    | nil => simp
    | cons event events ih => simp [ih, RuleStore.logEvent, Table.insert]
  exact hrows {}

/-- **What a query gives**, counted among the events that were logged. -/
theorem countP_queryEvents (srt : Sorter NewestFirst) (events : List RuleEvent) (start stop : ℤ)
    (type : RuleType) :
    ((logged events).queryEvents srt (-1) start stop (-1)).countP (ofKind (-1) type) =
      events.countP (within (ofKind (-1) type) (·.timestamp) start stop) := by
  have hrow : ∀ row : ℤ × EventRow, (ofKind (-1) type (decodeEvent row.2) &&
      RuleStore.loggedBetween (-1) start stop row) =
      within (fun row : EventRow => ofKind (-1) type (decodeEvent row)) (·.timestampMs) start stop
        row.2 := by
    intro row
    simp only [within, ofKind, RuleStore.loggedBetween, decodeEvent]
    by_cases hchannel : row.2.channelId = -1
    · simp [hchannel]
    · simp [hchannel]
  have hevent : ∀ event : RuleEvent,
      within (fun row : EventRow => ofKind (-1) type (decodeEvent row)) (·.timestampMs) start stop
        (encodeEvent event) = within (ofKind (-1) type) (·.timestamp) start stop event := by
    intro event
    simp only [within, decodeEvent_encodeEvent]
    rfl
  calc ((logged events).queryEvents srt (-1) start stop (-1)).countP (ofKind (-1) type)
      = ((logged events).events.select (RuleStore.loggedBetween (-1) start stop)).countP
          fun row => ofKind (-1) type (decodeEvent row.2) := by
        rw [RuleStore.queryEvents, List.countP_map]
        exact (srt.perm _).countP_eq _
    _ = ((logged events).events.rows.map (·.2)).countP (within
          (fun row : EventRow => ofKind (-1) type (decodeEvent row)) (·.timestampMs) start stop) := by
        rw [Table.select, List.countP_filter, List.countP_map]
        exact List.countP_congr fun row _ => by rw [hrow]; rfl
    _ = events.countP (within (ofKind (-1) type) (·.timestamp) start stop) := by
        rw [rows_logged, List.countP_map]
        exact List.countP_congr fun event _ => by rw [Function.comp_apply, hevent]

/-- No event of another channel is asked for. -/
theorem countP_queryEvents_ne (srt : Sorter NewestFirst) (rules : RuleStore) (start stop limit : ℤ)
    (hne : channelId ≠ -1) :
    (rules.queryEvents srt (-1) start stop limit).countP (ofKind channelId type) = 0 := by
  refine List.countP_eq_zero.mpr fun event hevent => ?_
  obtain ⟨row, hrow, rfl⟩ := List.mem_map.mp hevent
  have hmem : row ∈ rules.events.select (RuleStore.loggedBetween (-1) start stop) := by
    rw [limitRows] at hrow
    split at hrow
    · exact srt.mem.mp hrow
    · exact srt.mem.mp (List.mem_of_mem_take hrow)
  have hchannel := (Table.mem_select.mp hmem).2
  simp only [RuleStore.loggedBetween, decide_eq_true_eq] at hchannel
  have hdecoded : (decodeEvent row.2).channelId = -1 := hchannel.1
  simp [ofKind, hdecoded, hne.symm]

/-! ### One call -/

/-- No event of channel -1 lies between the time the aggregator remembers and this one. -/
structure UpTo (rules : RuleStore) (agg : AnalyticsAggregator) (w : ℤ) : Prop where
  le : agg.lastAggregatedMs ≤ w
  none : ∀ row ∈ rules.events.rows, row.2.channelId = -1 →
    agg.lastAggregatedMs ≤ row.2.timestampMs → w ≤ row.2.timestampMs

theorem UpTo.queryEvents_eq (h : UpTo rules agg w) (stop limit : ℤ) :
    rules.queryEvents srt (-1) agg.lastAggregatedMs stop limit =
      rules.queryEvents srt (-1) w stop limit := by
  have hselect : rules.events.select (RuleStore.loggedBetween (-1) agg.lastAggregatedMs stop) =
      rules.events.select (RuleStore.loggedBetween (-1) w stop) := by
    refine List.filter_congr fun row hrow => ?_
    simp only [RuleStore.loggedBetween, decide_eq_decide]
    refine and_congr_right fun hchannel => and_congr_left fun _ => ?_
    exact ⟨h.none row hrow hchannel, h.le.trans⟩
  rw [RuleStore.queryEvents, RuleStore.queryEvents, hselect]

theorem lastAggregatedMs_step (srt : Sorter NewestFirst) (rules : RuleStore)
    (agg : AnalyticsAggregator) (call : AggregationCall) :
    (step srt rules agg call).lastAggregatedMs =
      if (rules.queryEvents srt (-1) agg.lastAggregatedMs call.time 10000).length > 0 then
        call.time else agg.lastAggregatedMs := by
  simp only [step, AnalyticsAggregator.runAggregation, AnalyticsAggregator.purge]
  split <;> rfl

/-- A query without an answer: there is no such event. -/
theorem queryEvents_eq_nil {c start stop : ℤ} (h : rules.queryEvents srt c start stop 10000 = [])
    {row : ℤ × EventRow} (hrow : row ∈ rules.events.rows) (hchannel : row.2.channelId = c)
    (hstart : start ≤ row.2.timestampMs) : stop < row.2.timestampMs := by
  by_contra hstop
  have hmem : row ∈ rules.events.select (RuleStore.loggedBetween c start stop) := by
    refine Table.mem_select.mpr ⟨hrow, ?_⟩
    simp [RuleStore.loggedBetween, hchannel, hstart, not_lt.mp hstop]
  rw [queryEvents_limit, List.take_eq_nil_iff] at h
  have hnone : srt.sort (rules.events.select (RuleStore.loggedBetween c start stop)) = [] :=
    List.map_eq_nil_iff.mp (h.resolve_left (by decide))
  have hsorted := srt.mem.mpr hmem
  rw [hnone] at hsorted
  exact List.not_mem_nil hsorted

theorem UpTo.step (h : UpTo rules agg w) (srt : Sorter NewestFirst) (call : AggregationCall)
    (hw : w ≤ call.time) :
    UpTo rules (step srt rules agg call) call.time := by
  have hlast := lastAggregatedMs_step srt rules agg call
  split at hlast
  · exact ⟨hlast.le, fun row _ _ hle => hlast ▸ hle⟩
  · rename_i hnone
    have hnil := List.length_eq_zero_iff.mp (Nat.eq_zero_of_not_pos hnone)
    refine ⟨hlast.le.trans (h.le.trans hw), fun row hrow hchannel hle => ?_⟩
    rw [hlast] at hle
    exact (queryEvents_eq_nil hnil hrow hchannel hle).le

theorem total_purge (h : PurgesNothing srt rules agg call) (c : ℤ) (key : String) :
    (step srt rules agg call).store.total c key =
      (agg.aggregate srt rules call.time).2.store.total c key :=
  @AnalyticsAggregator.total_purge (agg.aggregate srt rules call.time).2 call.time h c key

theorem UpTo.total_step (h : UpTo rules agg w) (channelId : ℤ) (type : RuleType)
    (hpurge : PurgesNothing srt rules agg call) :
    (Analytics.step srt rules agg call).store.total channelId (ruleTypeToKey type) =
      agg.store.total channelId (ruleTypeToKey type) +
        (rules.queryEvents srt (-1) w call.time 10000).countP (ofKind channelId type) := by
  rw [total_purge hpurge, AnalyticsAggregator.total_aggregate, h.queryEvents_eq]

/-! ### The sums after a run -/

/-- **Each call** counts what the query gives of the span since the call before it. -/
theorem UpTo.total_run (h : UpTo rules agg w) (channelId : ℤ) (type : RuleType)
    {calls : List AggregationCall}
    (hsorted : (w :: calls.map (·.time)).Pairwise (· ≤ ·))
    (hpurge : EveryStep (Analytics.step srt rules) (PurgesNothing srt rules) agg calls) :
    (calls.foldl (Analytics.step srt rules) agg).store.total channelId (ruleTypeToKey type) =
      agg.store.total channelId (ruleTypeToKey type) +
        ((spans w (calls.map (·.time))).map fun s =>
          (rules.queryEvents srt (-1) s.1 s.2 10000).countP (ofKind channelId type)).sum := by
  induction calls generalizing agg w with
  | nil => simp [spans]
  | cons call calls ih =>
      obtain ⟨hw, hsorted⟩ := List.pairwise_cons.mp hsorted
      have hstep := h.step srt call (hw _ List.mem_cons_self)
      have htotal := h.total_step channelId type hpurge.1
      simp only [List.foldl_cons, List.map_cons, spans, List.sum_cons, Nat.cast_add]
      rw [ih hstep hsorted hpurge.2, htotal, add_assoc]

/-! ### Lost and counted twice -/

/-- The number of logged events of the channel and the type up to a time. -/
def countUpTo (events : List RuleEvent) (channelId : ℤ) (type : RuleType) (time : ℤ) : ℕ :=
  events.countP fun event => ofKind channelId type event && decide (event.timestamp ≤ time)

/-- The events between two times that the query leaves out, older than the 10000 it gives. -/
def leftOut (srt : Sorter NewestFirst) (rules : RuleStore) (span : ℤ × ℤ) : List RuleEvent :=
  (rules.queryEvents srt (-1) span.1 span.2 (-1)).drop 10000

/-- How many events of the type, on channel -1, are from before 1970, or left out of the span from
one call's time to the next. -/
def lost (srt : Sorter NewestFirst) (events : List RuleEvent) (times : List ℤ) (type : RuleType) :
    ℕ :=
  events.countP (fun event => ofKind (-1) type event && decide (event.timestamp < 0)) +
    ((spans 0 times).map fun span =>
      (leftOut srt (logged events) span).countP (ofKind (-1) type)).sum

/-- How many events of the type, on channel -1, are from exactly one of these times, once for each
of them. -/
def twice (events : List RuleEvent) (times : List ℤ) (type : RuleType) : ℕ :=
  (times.map fun t => events.countP (atPoint (ofKind (-1) type) (·.timestamp) t)).sum

theorem countP_taken (srt : Sorter NewestFirst) (events : List RuleEvent) (type : RuleType)
    (span : ℤ × ℤ) :
    ((logged events).queryEvents srt (-1) span.1 span.2 10000).countP (ofKind (-1) type) +
        (leftOut srt (logged events) span).countP (ofKind (-1) type) =
      events.countP (within (ofKind (-1) type) (·.timestamp) span.1 span.2) := by
  rw [queryEvents_limit, leftOut, ← List.countP_append, List.take_append_drop, countP_queryEvents]

/-- From the year 1970 on, and before. -/
theorem countP_within_zero (events : List RuleEvent) (type : RuleType) {time : ℤ} (h : 0 ≤ time) :
    events.countP (within (ofKind (-1) type) (·.timestamp) 0 time) +
        events.countP (fun event => ofKind (-1) type event && decide (event.timestamp < 0)) =
      countUpTo events (-1) type time := by
  unfold countUpTo
  induction events with
  | nil => rfl
  | cons event events ih =>
      simp only [List.countP_cons, within, Bool.and_eq_true, decide_eq_true_eq] at ih ⊢
      cases ofKind (-1) type event with
      | false => simpa using ih
      | true =>
          rcases lt_or_ge event.timestamp 0 with hlt | hge
          · have hle : event.timestamp ≤ time := by omega
            simp only [hlt, hle, not_le.mpr hlt, and_false, and_true, if_true, if_false]
            omega
          · simp only [hge, not_lt.mpr hge, true_and, and_false, if_false]
            omega

/-- **The account**: what is counted and what is lost make up the events and those counted once
more. -/
theorem counted_add_lost (srt : Sorter NewestFirst) (events : List RuleEvent) {earlier : List ℤ}
    {last : ℤ} (hsorted : (0 :: (earlier ++ [last])).Pairwise (· ≤ ·)) (type : RuleType) :
    ((spans 0 (earlier ++ [last])).map fun s =>
        ((logged events).queryEvents srt (-1) s.1 s.2 10000).countP (ofKind (-1) type)).sum +
      lost srt events (earlier ++ [last]) type =
    countUpTo events (-1) type last + twice events earlier type := by
  have hlast : 0 ≤ last := (List.pairwise_cons.mp hsorted).1 last (by simp)
  have hspans := sum_countP_spans (ofKind (-1) type) (·.timestamp) events last hsorted
  have htaken : ((spans 0 (earlier ++ [last])).map fun s =>
        ((logged events).queryEvents srt (-1) s.1 s.2 10000).countP (ofKind (-1) type)).sum +
      ((spans 0 (earlier ++ [last])).map fun s =>
        (leftOut srt (logged events) s).countP (ofKind (-1) type)).sum =
      ((spans 0 (earlier ++ [last])).map fun s =>
        events.countP (within (ofKind (-1) type) (·.timestamp) s.1 s.2)).sum := by
    rw [← List.sum_map_add]
    exact congrArg List.sum (List.map_congr_left fun s _ => countP_taken srt events type s)
  rw [← countP_within_zero events type hlast, lost, twice]
  omega

/-! ### The sums -/

/-- **A sum is the number of the events** of a channel and a type after a run of calls, each no
earlier than the one before, exactly in these cases.  On channel -1: as many of them are lost as
are from the time of a call that another follows.  On any other channel: there are none. -/
theorem total_iff (srt : Sorter NewestFirst) (config : AggregatorConfig) (events : List RuleEvent)
    (earlier : List AggregationCall) (last : AggregationCall)
    (hsorted : ((earlier ++ [last]).map (·.time)).Pairwise (· ≤ ·))
    (hpurge : EveryStep (step srt (logged events)) (PurgesNothing srt (logged events))
      { config := config } (earlier ++ [last])) (channelId : ℤ) (type : RuleType) :
    (run srt config (logged events) (earlier ++ [last])).store.total channelId
        (ruleTypeToKey type) = countUpTo events channelId type last.time ↔
      if channelId = -1 then
        lost srt events ((earlier ++ [last]).map (·.time)) type =
          twice events (earlier.map (·.time)) type
      else ∀ event ∈ events, event.timestamp ≤ last.time → ofKind channelId type event = false := by
  have hchain : ((0 : ℤ) :: (earlier ++ [last]).map (·.time)).Pairwise (· ≤ ·) :=
    List.pairwise_cons.mpr ⟨fun t ht => by
      obtain ⟨call, -, rfl⟩ := List.mem_map.mp ht
      exact call.time_pos.le, hsorted⟩
  have hstart : UpTo (logged events) { config := config } 0 := ⟨le_rfl, fun _ _ _ h => h⟩
  have htotal := hstart.total_run channelId type hchain hpurge
  have hnew : ({} : AnalyticsStore).total channelId (ruleTypeToKey type) = 0 := rfl
  rw [hnew, zero_add] at htotal
  rw [run, htotal, Nat.cast_inj]
  split
  · rename_i hchannel
    subst hchannel
    simp only [List.map_append, List.map_cons, List.map_nil] at hchain ⊢
    have haccount := counted_add_lost srt events hchain type
    omega
  · rename_i hchannel
    -- the queries are for channel -1 and give no event of another
    have hnone : ((spans 0 ((earlier ++ [last]).map (·.time))).map fun s =>
        ((logged events).queryEvents srt (-1) s.1 s.2 10000).countP (ofKind channelId type)).sum =
        0 := by
      simp only [countP_queryEvents_ne _ _ _ _ _ hchannel, List.sum_map_zero]
    rw [hnone, countUpTo, eq_comm, List.countP_eq_zero]
    refine forall₂_congr fun event _ => ?_
    simp only [Bool.and_eq_true, decide_eq_true_eq, not_and', Bool.not_eq_true]

def lineCrossed (channelId timestamp : ℤ) : RuleEvent where
  ruleId := 1
  ruleName := "gate"
  ruleType := .crossLine
  channelId := channelId
  timestamp := timestamp
  triggerDetection :=
    { x1 := 0, y1 := 0, x2 := 4, y2 := 4, confidence := 1, classId := 0, className := "person" }

def byTimestamp : Sorter NewestFirst :=
  Sorter.byKeyDesc fun row : ℤ × EventRow => row.2.timestampMs

/-- Two events of no channel, one in each of two spans. -/
theorem total_two :
    (run byTimestamp { retentionDays := 0 } (logged [lineCrossed (-1) 1000, lineCrossed (-1) 3000])
      [{ upToMs := 2000 }, { upToMs := 4000 }]).store.total (-1) "cross_line" =
      countUpTo [lineCrossed (-1) 1000, lineCrossed (-1) 3000] (-1) .crossLine 4000 :=
  (total_iff byTimestamp { retentionDays := 0 } _ [{ upToMs := 2000 }] { upToMs := 4000 }
    (by decide) ⟨fun h => absurd h (by decide), fun h => absurd h (by decide +kernel), trivial⟩ (-1)
    .crossLine).mpr (by rw [if_pos rfl]; decide +kernel)

/-- An event of channel 1 is never counted. -/
theorem total_refuted :
    ¬ ∀ (srt : Sorter NewestFirst) (config : AggregatorConfig) (events : List RuleEvent)
      (earlier : List AggregationCall) (last : AggregationCall),
      ((earlier ++ [last]).map (·.time)).Pairwise (· < ·) →
      (∀ event ∈ events, event.timestamp ≤ last.time) →
      EveryStep (step srt (logged events)) (PurgesNothing srt (logged events))
        { config := config } (earlier ++ [last]) →
      ∀ (channelId : ℤ) (type : RuleType),
        (run srt config (logged events) (earlier ++ [last])).store.total channelId
          (ruleTypeToKey type) = countUpTo events channelId type last.time := by
  intro h
  have htotal := h byTimestamp { retentionDays := 0 } [lineCrossed 1 1000] [] { upToMs := 2000 }
    (by decide) (by decide) ⟨fun h => absurd h (by decide), trivial⟩ 1 .crossLine
  exact absurd htotal (by decide +kernel)

end LoongNvr.Analytics
