import LoongNvr.Analytics.AnalyticsStore
import LoongNvr.Core.Types
import LoongNvr.Support.Groups
import LoongNvr.Support.Sorter
import Mathlib.Algebra.Order.BigOperators.Group.List
import Mathlib.Data.List.Dedup
import Mathlib.Data.List.TakeWhile

/-!
# Analytics — AnalyticsViews

The queries on `analytics_hourly`: the rows themselves, the summary of a range, its trends and its
peak hours.  The database is open and its statements succeed.

`SUM` and `GROUP BY` are SQLite's; the trends are made in a hash map.  The orders that neither fixes
are those of any `QueryOrders`.

* `buckets_trendBuckets`: each row is in one bucket, and the buckets count their rows.
* `unions_of_buckets`: buckets of a coarser granularity are made of those of a finer one.
* `typeCount_getSummary`: the summary counts each type once.
* `viewsAgree`: all views count the same events.
-/

namespace LoongNvr.Analytics
open Support
open LoongNvr.Core (toInt32 toInt32_of_fits)
open LoongNvr.Rules (cStr RuleType)

/-! ### The queries -/

/-- Granularity for time-series aggregation. -/
inductive TimeGranularity
  | hourly
  | daily
  | weekly
  | monthly
  deriving DecidableEq, Repr

/-- `bucket_ms` -/
def TimeGranularity.bucketMs : TimeGranularity → ℤ
  | .hourly => 3600 * 1000
  | .daily => 86400 * 1000
  | .weekly => 7 * 86400 * 1000
  | .monthly => 30 * 86400 * 1000

/-- `(hour / bucket_ms) * bucket_ms` -/
def TimeGranularity.bucketKey (g : TimeGranularity) (hour : ℤ) : ℤ :=
  hour.tdiv g.bucketMs * g.bucketMs

/-- A single bucket in a time-series aggregation. -/
structure TrendBucket where
  bucketStart : ℤ := 0
  eventCount : ℤ := 0
  countSum : ℤ := 0
  ruleType : String := ""
  channelId : ℤ := -1
  deriving DecidableEq, Repr

/-- Summary statistics over a time range. -/
structure AnalyticsSummary where
  startTime : ℤ := 0
  endTime : ℤ := 0
  totalEvents : ℤ := 0
  crossLineEvents : ℤ := 0
  regionIntrusionEvents : ℤ := 0
  objectCountingEvents : ℤ := 0
  loiteringEvents : ℤ := 0
  totalCountValue : ℤ := 0
  activeChannels : ℤ := 0
  deriving DecidableEq, Repr

/-- Peak hour entry. -/
structure PeakHourEntry where
  hour : ℤ
  eventCount : ℤ
  percentage : ℚ
  deriving DecidableEq, Repr

/-- A row of the `GROUP BY rule_type`. -/
structure TypeGroup where
  ruleType : String
  eventCount : ℤ
  countSum : ℤ
  deriving DecidableEq, Repr

/-- The orders in which rows, groups and the buckets of the hash map are walked, and `std::sort`. -/
structure QueryOrders where
  byHour : Sorter fun a b : HourlyAggregate => a.hourStart < b.hourStart
  types : Sorter fun _ _ : String => False
  hoursOfDay : Sorter fun a b : ℤ => a < b
  walk : Sorter fun _ _ : TrendBucket => False
  byBucket : Sorter fun a b : TrendBucket => a.bucketStart < b.bucketStart

/-- `hour_start >= ? AND hour_start <= ?`, and the channel where there is a filter. -/
def inRange (startMs endMs channelId : ℤ) (row : ℤ × HourlyAggregate) : Bool :=
  startMs ≤ row.2.hourStart ∧ row.2.hourStart ≤ endMs ∧
    (channelId ≥ 0 → row.2.channelId = channelId)

/-- The row of a `GROUP BY` is added to the summary. -/
def AnalyticsSummary.addGroup (s : AnalyticsSummary) (group : TypeGroup) : AnalyticsSummary :=
  let type := cStr group.ruleType
  let count := toInt32 group.eventCount
  let countSum := toInt32 group.countSum
  let s := { s with totalEvents := s.totalEvents + count }
  if type = "cross_line" then { s with crossLineEvents := count }
  else if type = "region_intrusion" then { s with regionIntrusionEvents := count }
  else if type = "object_counting" then
    { s with objectCountingEvents := count, totalCountValue := s.totalCountValue + countSum }
  else if type = "loitering" then { s with loiteringEvents := count }
  else s

/-- A row is added to its bucket. -/
def TrendBucket.addRow (g : TimeGranularity) (channelId : ℤ) (ruleType : String)
    (row : HourlyAggregate) (b : TrendBucket) : TrendBucket where
  bucketStart := g.bucketKey row.hourStart
  eventCount := b.eventCount + toInt32 row.eventCount
  countSum := b.countSum + toInt32 row.countSum
  channelId := channelId
  ruleType := ruleType

/-- What `GetTrends` makes of its rows. -/
def trendBuckets (orders : QueryOrders) (g : TimeGranularity) (channelId : ℤ) (ruleType : String)
    (rows : List HourlyAggregate) : List TrendBucket :=
  let buckets := tally (fun row => g.bucketKey row.hourStart)
    (TrendBucket.addRow g channelId ruleType) {} rows
  orders.byBucket.sort (orders.walk.sort (buckets.entries.map (·.2)))

/-- The groups of rows by their types. -/
def typeGroups (orders : QueryOrders) (rows : List HourlyAggregate) : List TypeGroup :=
  (orders.types.sort (rows.map (·.ruleType)).dedup).map fun type =>
    { ruleType := type
      eventCount := groupSum (·.ruleType) (·.eventCount) rows type
      countSum := groupSum (·.ruleType) (·.countSum) rows type }

/-- `(hour_start / 3600000) % 24` -/
def hourOfDay (row : HourlyAggregate) : ℤ := (row.hourStart.tdiv 3600000).tmod 24

namespace AnalyticsStore

variable (store : AnalyticsStore) (orders : QueryOrders)

/-- The rows of a range, for a channel where there is a filter. -/
def between (startMs endMs channelId : ℤ) : List HourlyAggregate :=
  (store.hourly.select (inRange startMs endMs channelId)).map (·.2)

/-- `AnalyticsStore::QueryHourly`; a filter that is not set lets every row through. -/
def queryHourly (channelId : ℤ) (ruleType : String) (startMs endMs : ℤ) : List HourlyAggregate :=
  (orders.byHour.sort ((store.hourly.select fun row =>
      (channelId ≥ 0 → row.2.channelId = channelId) ∧
        (ruleType ≠ "" → row.2.ruleType = cStr ruleType) ∧
        (startMs > 0 → startMs ≤ row.2.hourStart) ∧ (endMs > 0 → row.2.hourStart ≤ endMs)).map
    (·.2))).map fun row =>
      { row with
        ruleType := cStr row.ruleType
        eventCount := toInt32 row.eventCount
        countSum := toInt32 row.countSum }

/-- `AnalyticsStore::GetSummary` -/
def getSummary (startMs endMs channelId : ℤ) : AnalyticsSummary :=
  let rows := store.between startMs endMs channelId
  let summary : AnalyticsSummary := { startTime := startMs, endTime := endMs }
  { (typeGroups orders rows).foldl AnalyticsSummary.addGroup summary with
    activeChannels := toInt32 (rows.map (·.channelId)).dedup.length }

/-- The rows `GetTrends` goes through. -/
def trendRows (startMs endMs channelId : ℤ) (ruleType : String) : List HourlyAggregate :=
  orders.byHour.sort ((store.between startMs endMs channelId).filter fun row =>
    ruleType ≠ "" → row.ruleType = cStr ruleType)

/-- `AnalyticsStore::GetTrends` -/
def getTrends (startMs endMs : ℤ) (g : TimeGranularity) (channelId : ℤ) (ruleType : String) :
    List TrendBucket :=
  trendBuckets orders g channelId ruleType
    (store.trendRows orders startMs endMs channelId ruleType)

/-- `AnalyticsStore::GetPeakHours` -/
def getPeakHours (startMs endMs channelId : ℤ) : List PeakHourEntry :=
  let rows := store.between startMs endMs channelId
  let raw := (orders.hoursOfDay.sort (rows.map hourOfDay).dedup).map fun hour =>
    (toInt32 hour, toInt32 (groupSum hourOfDay (·.eventCount) rows hour))
  let total := (raw.map (·.2)).sum
  raw.map fun entry =>
    { hour := entry.1
      eventCount := entry.2
      percentage := if total > 0 then entry.2 / total * 100 else 0 }

end AnalyticsStore

/-! ### Counts that fit -/

/-- The events of a list of rows. -/
def events (rows : List HourlyAggregate) : ℤ := (rows.map (·.eventCount)).sum

/-- Counts that are not negative and whose sum is an `int`. -/
structure Fits (rows : List HourlyAggregate) : Prop where
  nonneg : ∀ row ∈ rows, 0 ≤ row.eventCount
  small : events rows < 2147483648

variable {κ : Type*} [DecidableEq κ] {rows : List HourlyAggregate}

namespace Fits

theorem perm {rows' : List HourlyAggregate} (h : Fits rows) (hperm : rows'.Perm rows) :
    Fits rows' where
  nonneg row hrow := h.nonneg row (hperm.mem_iff.mp hrow)
  small := by
    rw [events, (hperm.map _).sum_eq]
    exact h.small

theorem filter (h : Fits rows) (p : HourlyAggregate → Bool) : Fits (rows.filter p) where
  nonneg row hrow := h.nonneg row (List.mem_filter.mp hrow).1
  small := by
    have hle := groupSum_le_sum p h.nonneg true
    simp only [groupSum, Bool.decide_eq_true] at hle
    exact lt_of_le_of_lt hle h.small

/-- The counts read are the counts. -/
theorem toInt32_row (h : Fits rows) {row : HourlyAggregate} (hrow : row ∈ rows) :
    toInt32 row.eventCount = row.eventCount := by
  refine toInt32_of_fits (h.nonneg row hrow) (lt_of_le_of_lt ?_ h.small)
  refine List.single_le_sum (fun x hx => ?_) _ (List.mem_map_of_mem hrow)
  obtain ⟨other, hother, rfl⟩ := List.mem_map.mp hx
  exact h.nonneg other hother

theorem toInt32_group (h : Fits rows) (key : HourlyAggregate → κ) (k : κ) :
    toInt32 (groupSum key (·.eventCount) rows k) = groupSum key (·.eventCount) rows k :=
  toInt32_of_fits (groupSum_nonneg h.nonneg k)
    (lt_of_le_of_lt (groupSum_le_sum key h.nonneg k) h.small)

end Fits

/-- Groups read one by one have all events. -/
theorem sum_groups (h : Fits rows) (key : HourlyAggregate → κ) {ks : List κ} (hnodup : ks.Nodup)
    (hks : ∀ row ∈ rows, key row ∈ ks) :
    (ks.map fun k => toInt32 (groupSum key (·.eventCount) rows k)).sum = events rows := by
  simp only [h.toInt32_group]
  exact sum_groupSum hnodup hks

/-! ### The summary -/

/-- The summary's count of a type. -/
def AnalyticsSummary.typeCount (s : AnalyticsSummary) : RuleType → ℤ
  | .crossLine => s.crossLineEvents
  | .regionIntrusion => s.regionIntrusionEvents
  | .objectCounting => s.objectCountingEvents
  | .loitering => s.loiteringEvents

theorem typeCount_activeChannels (s : AnalyticsSummary) (n : ℤ) (type : RuleType) :
    ({ s with activeChannels := n } : AnalyticsSummary).typeCount type = s.typeCount type := by
  cases type <;> rfl

theorem totalEvents_addGroup (s : AnalyticsSummary) (group : TypeGroup) :
    (s.addGroup group).totalEvents = s.totalEvents + toInt32 group.eventCount := by
  unfold AnalyticsSummary.addGroup
  dsimp only
  split_ifs <;> rfl

theorem totalEvents_foldl (groups : List TypeGroup) (s : AnalyticsSummary) :
    (groups.foldl AnalyticsSummary.addGroup s).totalEvents =
      s.totalEvents + (groups.map fun group => toInt32 group.eventCount).sum := by
  induction groups generalizing s with
  | nil => simp
  | cons group groups ih =>
      rw [List.foldl_cons, ih, totalEvents_addGroup, List.map_cons, List.sum_cons, add_assoc]

theorem typeCount_addGroup (s : AnalyticsSummary) (group : TypeGroup) (type : RuleType) :
    (s.addGroup group).typeCount type =
      if cStr group.ruleType = type.toString then toInt32 group.eventCount
      else s.typeCount type := by
  unfold AnalyticsSummary.addGroup
  dsimp only
  generalize cStr group.ruleType = name
  split
  · next h =>
      subst h
      cases type <;> rfl
  · next hcross =>
      split
      · next h =>
          subst h
          cases type <;> rfl
      · next hregion =>
          split
          · next h =>
              subst h
              cases type <;> rfl
          · next hcounting =>
              split
              · next h =>
                  subst h
                  cases type <;> rfl
              · next hloitering =>
                  -- a type the summary has no count for
                  have hother : name ≠ type.toString := by
                    cases type with
                    | crossLine => exact hcross
                    | regionIntrusion => exact hregion
                    | objectCounting => exact hcounting
                    | loitering => exact hloitering
                  rw [if_neg hother]
                  cases type <;> rfl

/-- **The summary counts each type once.** -/
theorem typeCount_foldl {ks : List String} (hnodup : ks.Nodup) (htext : ∀ k ∈ ks, cStr k = k)
    (group : String → TypeGroup) (hgroup : ∀ k, (group k).ruleType = k) (s : AnalyticsSummary)
    (type : RuleType) :
    ((ks.map group).foldl AnalyticsSummary.addGroup s).typeCount type =
      if type.toString ∈ ks then toInt32 (group type.toString).eventCount
      else s.typeCount type := by
  induction ks generalizing s with
  | nil => rfl
  | cons k ks ih =>
      obtain ⟨hnew, hrest⟩ := List.nodup_cons.mp hnodup
      obtain ⟨hk, hks⟩ := List.forall_mem_cons.mp htext
      rw [List.map_cons, List.foldl_cons, ih hrest hks, typeCount_addGroup, hgroup, hk]
      by_cases e : k = type.toString
      · subst e
        simp [hnew]
      · simp [e, Ne.symm e]

theorem cStr_toString (type : RuleType) : cStr type.toString = type.toString := by
  cases type <;> decide

variable {orders : QueryOrders} {startMs endMs channelId : ℤ} {ruleType : String}
  {g : TimeGranularity}

theorem nodup_types : (orders.types.sort (rows.map (·.ruleType)).dedup).Nodup :=
  (orders.types.perm _).nodup_iff.mpr (List.nodup_dedup _)

theorem mem_types {type : String} :
    type ∈ orders.types.sort (rows.map (·.ruleType)).dedup ↔ ∃ row ∈ rows, row.ruleType = type := by
  rw [orders.types.mem, List.mem_dedup, List.mem_map]

theorem totalEvents_typeGroups (h : Fits rows) (s : AnalyticsSummary) :
    ((typeGroups orders rows).foldl AnalyticsSummary.addGroup s).totalEvents =
      s.totalEvents + events rows := by
  rw [totalEvents_foldl, typeGroups, List.map_map]
  refine congrArg (s.totalEvents + ·) (sum_groups h (·.ruleType) nodup_types fun row hrow => ?_)
  exact mem_types.mpr ⟨row, hrow, rfl⟩

theorem typeCount_typeGroups (h : Fits rows)
    (htext : ∀ row ∈ rows, cStr row.ruleType = row.ruleType) (s : AnalyticsSummary)
    (type : RuleType) (hs : s.typeCount type = 0) :
    ((typeGroups orders rows).foldl AnalyticsSummary.addGroup s).typeCount type =
      events (rows.filter (·.ruleType = type.toString)) := by
  have htexts : ∀ k ∈ orders.types.sort (rows.map (·.ruleType)).dedup, cStr k = k := by
    intro k hk
    obtain ⟨row, hrow, rfl⟩ := mem_types.mp hk
    exact htext row hrow
  rw [typeGroups, typeCount_foldl nodup_types htexts _ (fun _ => rfl)]
  split
  · exact h.toInt32_group (·.ruleType) type.toString
  · next hnone =>
      rw [hs]
      refine (groupSum_eq_zero HourlyAggregate.ruleType fun row hrow e => ?_).symm
      exact hnone (mem_types.mpr ⟨row, hrow, e⟩)

/-! ### The buckets of a trend -/

theorem bucketMs_pos (g : TimeGranularity) : 0 < g.bucketMs := by
  cases g <;> decide

/-- The start of an hour's bucket, of the hours of a bucket's start. -/
theorem tdiv_mul_coarser (x : ℤ) {w : ℤ} (hw : 0 < w) (m : ℤ) :
    (x.tdiv w * w).tdiv (w * m) = x.tdiv (w * m) := by
  have hnonneg : ∀ x : ℤ, 0 ≤ x → (x.tdiv w * w).tdiv (w * m) = x.tdiv (w * m) := by
    intro x hx
    have hquot : 0 ≤ x / w := Int.ediv_nonneg hx hw.le
    rw [Int.tdiv_eq_ediv_of_nonneg hx, Int.tdiv_eq_ediv_of_nonneg hx,
      Int.tdiv_eq_ediv_of_nonneg (mul_nonneg hquot hw.le), mul_comm (x / w),
      Int.mul_ediv_mul_of_pos _ _ hw, Int.ediv_ediv_of_nonneg hw.le]
  rcases le_total 0 x with hx | hx
  · exact hnonneg x hx
  · have hneg := hnonneg (-x) (Int.neg_nonneg.mpr hx)
    rw [Int.neg_tdiv, Int.neg_mul, Int.neg_tdiv, Int.neg_tdiv] at hneg
    exact Int.neg_inj.mp hneg

theorem bucketKey_bucketKey {fine coarse : TimeGranularity} (h : fine.bucketMs ∣ coarse.bucketMs)
    (hour : ℤ) : coarse.bucketKey (fine.bucketKey hour) = coarse.bucketKey hour := by
  obtain ⟨m, hm⟩ := h
  simp only [TimeGranularity.bucketKey, hm]
  rw [tdiv_mul_coarser hour (bucketMs_pos fine) m]

theorem eventCount_foldl (l : List HourlyAggregate) (b : TrendBucket) :
    (l.foldl (fun b row => b.addRow g channelId ruleType row) b).eventCount =
      b.eventCount + (l.map fun row => toInt32 row.eventCount).sum := by
  induction l generalizing b with
  | nil => simp
  | cons row l ih =>
      rw [List.foldl_cons, ih, List.map_cons, List.sum_cons, ← add_assoc]
      rfl

theorem bucketStart_foldl {l : List HourlyAggregate} {k : ℤ}
    (hkey : ∀ row ∈ l, g.bucketKey row.hourStart = k) (b : TrendBucket)
    (hne : l ≠ [] ∨ b.bucketStart = k) :
    (l.foldl (fun b row => b.addRow g channelId ruleType row) b).bucketStart = k := by
  induction l generalizing b with
  | nil => exact hne.resolve_left fun h => h rfl
  | cons row l ih =>
      obtain ⟨hrow, hl⟩ := List.forall_mem_cons.mp hkey
      exact ih hl _ (.inr hrow)

/-- The buckets of some rows: each counts the rows of its key. -/
structure Buckets (g : TimeGranularity) (rows : List HourlyAggregate)
    (buckets : List TrendBucket) : Prop where
  increasing : buckets.Pairwise (·.bucketStart < ·.bucketStart)
  counted : ∀ b ∈ buckets, b.eventCount =
    events (rows.filter fun row => g.bucketKey row.hourStart = b.bucketStart)
  filled : ∀ b ∈ buckets, ∃ row ∈ rows, g.bucketKey row.hourStart = b.bucketStart
  one : ∀ row ∈ rows, ∃! b, b ∈ buckets ∧ g.bucketKey row.hourStart = b.bucketStart

theorem Buckets.nodup {buckets : List TrendBucket} (h : Buckets g rows buckets) :
    (buckets.map (·.bucketStart)).Nodup :=
  List.pairwise_map.mpr (h.increasing.imp ne_of_lt)

theorem Buckets.mem_starts {buckets : List TrendBucket} (h : Buckets g rows buckets)
    {row : HourlyAggregate} (hrow : row ∈ rows) :
    g.bucketKey row.hourStart ∈ buckets.map (·.bucketStart) := by
  obtain ⟨b, ⟨hb, hkey⟩, -⟩ := h.one row hrow
  exact List.mem_map.mpr ⟨b, hb, hkey.symm⟩

theorem Buckets.eventCounts {buckets : List TrendBucket} (h : Buckets g rows buckets) :
    buckets.map (·.eventCount) = (buckets.map (·.bucketStart)).map
      (groupSum (fun row => g.bucketKey row.hourStart) (·.eventCount) rows) := by
  rw [List.map_map]
  exact List.map_congr_left h.counted

/-- **All buckets** have all events. -/
theorem Buckets.sum {buckets : List TrendBucket} (h : Buckets g rows buckets) :
    (buckets.map (·.eventCount)).sum = events rows := by
  rw [h.eventCounts]
  exact sum_groupSum h.nodup fun row hrow => h.mem_starts hrow

/-- What is in the hash map. -/
theorem entry_trend (h : Fits rows) {e : Σ _ : ℤ, TrendBucket}
    (he : e ∈ (tally (fun row => g.bucketKey row.hourStart)
      (TrendBucket.addRow g channelId ruleType) {} rows).entries) :
    (∃ row ∈ rows, g.bucketKey row.hourStart = e.2.bucketStart) ∧ e.2.bucketStart = e.1 ∧
      e.2.eventCount = events (rows.filter fun row => g.bucketKey row.hourStart = e.1) := by
  obtain ⟨⟨row, hrow, hkey⟩, hvalue⟩ := entry_tally he
  have hgroup : ∀ row ∈ rows.filter (fun row => g.bucketKey row.hourStart = e.1),
      g.bucketKey row.hourStart = e.1 := fun row hrow => by
    simpa using (List.mem_filter.mp hrow).2
  have hstart : e.2.bucketStart = e.1 := by
    rw [hvalue]
    refine bucketStart_foldl hgroup _ (.inl ?_)
    exact List.ne_nil_of_mem (List.mem_filter.mpr ⟨hrow, by simpa using hkey⟩)
  refine ⟨⟨row, hrow, hkey.trans hstart.symm⟩, hstart, ?_⟩
  rw [hvalue, eventCount_foldl, zero_add, events]
  exact congrArg List.sum (List.map_congr_left fun row hrow =>
    (h.filter _).toInt32_row hrow)

theorem mem_trendBuckets {b : TrendBucket} :
    b ∈ trendBuckets orders g channelId ruleType rows ↔
      ∃ e ∈ (tally (fun row => g.bucketKey row.hourStart)
        (TrendBucket.addRow g channelId ruleType) {} rows).entries, e.2 = b := by
  rw [trendBuckets, orders.byBucket.mem, orders.walk.mem, List.mem_map]

theorem nodup_starts (h : Fits rows) :
    ((trendBuckets orders g channelId ruleType rows).map (·.bucketStart)).Nodup := by
  let m := tally (fun row => g.bucketKey row.hourStart)
    (TrendBucket.addRow g channelId ruleType) {} rows
  have hstarts : (m.entries.map (·.2)).map (·.bucketStart) = m.keys := by
    rw [List.map_map, AList.keys, List.keys]
    exact List.map_congr_left fun e he => (entry_trend h he).2.1
  have hperm := ((orders.byBucket.perm _).trans (orders.walk.perm (m.entries.map (·.2)))).map
    TrendBucket.bucketStart
  rw [hstarts] at hperm
  exact hperm.nodup_iff.mpr m.keys_nodup

/-- **What `GetTrends` makes of its rows.** -/
theorem buckets_trendBuckets (h : Fits rows) :
    Buckets g rows (trendBuckets orders g channelId ruleType rows) where
  increasing := by
    have hne : (trendBuckets orders g channelId ruleType rows).Pairwise
        fun a b => a.bucketStart ≠ b.bucketStart := List.pairwise_map.mp (nodup_starts h)
    exact (hne.and (orders.byBucket.sorted _)).imp fun hab =>
      lt_of_le_of_ne (not_lt.mp hab.2) hab.1
  counted b hb := by
    obtain ⟨e, he, rfl⟩ := mem_trendBuckets.mp hb
    obtain ⟨-, hstart, hcount⟩ := entry_trend h he
    rw [hcount, hstart]
  filled b hb := by
    obtain ⟨e, he, rfl⟩ := mem_trendBuckets.mp hb
    exact (entry_trend h he).1
  one row hrow := by
    have hmem : g.bucketKey row.hourStart ∈ tally (fun row => g.bucketKey row.hourStart)
        (TrendBucket.addRow g channelId ruleType) {} rows := (mem_tally _ _).mpr ⟨row, hrow, rfl⟩
    obtain ⟨b, hb⟩ := Option.isSome_iff_exists.mp (AList.lookup_isSome.mpr hmem)
    have he := AList.mem_lookup_iff.mp hb
    refine ⟨b, ⟨mem_trendBuckets.mpr ⟨_, he, rfl⟩, (entry_trend h he).2.1.symm⟩, ?_⟩
    rintro b' ⟨hb', hkey⟩
    refine List.inj_on_of_nodup_map (nodup_starts h) hb' (mem_trendBuckets.mpr ⟨_, he, rfl⟩) ?_
    rw [← hkey, (entry_trend h he).2.1]

/-- Each bucket of the coarser list is the union of the buckets of the finer one that start in
it. -/
structure Unions (g : TimeGranularity) (rows : List HourlyAggregate) (key : ℤ → ℤ)
    (fine coarse : List TrendBucket) : Prop where
  one : ∀ b ∈ fine, ∃! c, c ∈ coarse ∧ g.bucketKey b.bucketStart = c.bucketStart
  rows : ∀ c ∈ coarse, ∀ row ∈ rows, g.bucketKey row.hourStart = c.bucketStart ↔
    ∃ b ∈ fine, g.bucketKey b.bucketStart = c.bucketStart ∧ key row.hourStart = b.bucketStart
  counts : ∀ c ∈ coarse, c.eventCount =
    ((fine.filter fun b => g.bucketKey b.bucketStart = c.bucketStart).map (·.eventCount)).sum

/-- **Coarser buckets are made of finer ones.** -/
theorem unions_of_buckets {g' : TimeGranularity} (hdvd : g.bucketMs ∣ g'.bucketMs)
    {fine coarse : List TrendBucket} (hfine : Buckets g rows fine)
    (hcoarse : Buckets g' rows coarse) : Unions g' rows g.bucketKey fine coarse where
  one b hb := by
    obtain ⟨row, hrow, hkey⟩ := hfine.filled b hb
    rw [← hkey, bucketKey_bucketKey hdvd]
    exact hcoarse.one row hrow
  rows c hc row hrow := by
    constructor
    · intro hin
      obtain ⟨b, ⟨hb, hkey⟩, -⟩ := hfine.one row hrow
      refine ⟨b, hb, ?_, hkey⟩
      rw [← hkey, bucketKey_bucketKey hdvd, hin]
    · rintro ⟨b, hb, hin, hkey⟩
      rw [← bucketKey_bucketKey hdvd, hkey, hin]
  counts c hc := by
    have hgroups := groupSum_coarser (f := HourlyAggregate.eventCount) hfine.nodup
      (fun row hrow => hfine.mem_starts hrow) g'.bucketKey
      (fun row => (bucketKey_bucketKey hdvd row.hourStart).symm) c.bucketStart
    rw [hcoarse.counted c hc]
    refine hgroups.trans (congrArg List.sum ?_)
    rw [List.filter_map, List.map_map]
    exact List.map_congr_left fun b hb => (hfine.counted b (List.mem_filter.mp hb).1).symm

/-! ### The views -/

/-- What the table holds: counts that are not negative, and C strings. -/
structure Content (store : AnalyticsStore) : Prop where
  nonneg : ∀ row ∈ store.hourly.rows, 0 ≤ row.2.eventCount
  text : ∀ row ∈ store.hourly.rows, cStr row.2.ruleType = row.2.ruleType

theorem cStr_cStr (s : String) : cStr (cStr s) = cStr s := by
  simp only [cStr, String.toList_ofList, List.takeWhile_idem]

/-- **What `UpsertHourly` leaves** of events that were counted. -/
theorem Content.upsertHourly {store : AnalyticsStore} (h : Content store) {agg : HourlyAggregate}
    (hagg : 0 ≤ agg.eventCount) : Content (store.upsertHourly agg) := by
  have hrows : ∀ row ∈ (store.upsertHourly agg).hourly.rows,
      0 ≤ row.2.eventCount ∧ cStr row.2.ruleType = row.2.ruleType := by
    intro row hrow
    unfold AnalyticsStore.upsertHourly at hrow
    dsimp only at hrow
    split at hrow
    · rcases List.mem_append.mp hrow with hold | hnew
      · exact ⟨h.nonneg row hold, h.text row hold⟩
      · rw [List.mem_singleton.mp hnew]
        exact ⟨hagg, cStr_cStr agg.ruleType⟩
    · obtain ⟨old, hold, rfl⟩ := List.mem_map.mp hrow
      have hnonneg := h.nonneg old hold
      unfold Table.modifyRow
      split
      · exact ⟨add_nonneg hnonneg hagg, h.text old hold⟩
      · exact ⟨hnonneg, h.text old hold⟩
  exact ⟨fun row hrow => (hrows row hrow).1, fun row hrow => (hrows row hrow).2⟩

theorem Content.purgeOlderThan {store : AnalyticsStore} (h : Content store) (timestampMs : ℤ) :
    Content (store.purgeOlderThan timestampMs).2 where
  nonneg row hrow := h.nonneg row (List.mem_filter.mp hrow).1
  text row hrow := h.text row (List.mem_filter.mp hrow).1

/-- **The views of a range agree.** -/
structure ViewsAgree (orders : QueryOrders) (store : AnalyticsStore)
    (startMs endMs channelId : ℤ) : Prop where
  trends : ∀ g, ((store.getTrends orders startMs endMs g channelId "").map (·.eventCount)).sum =
    (store.getSummary orders startMs endMs channelId).totalEvents
  peakHours : ((store.getPeakHours orders startMs endMs channelId).map (·.eventCount)).sum =
    (store.getSummary orders startMs endMs channelId).totalEvents
  hourly : 0 < startMs → 0 < endMs →
    events (store.queryHourly orders channelId "" startMs endMs) =
      (store.getSummary orders startMs endMs channelId).totalEvents
  types : ∀ type g, (store.getSummary orders startMs endMs channelId).typeCount type =
    ((store.getTrends orders startMs endMs g channelId type.toString).map (·.eventCount)).sum
  buckets : ∀ g ruleType, Buckets g (store.trendRows orders startMs endMs channelId ruleType)
    (store.getTrends orders startMs endMs g channelId ruleType)
  weekly : ∀ ruleType, Unions .weekly (store.trendRows orders startMs endMs channelId ruleType)
    (TimeGranularity.bucketKey .daily)
    (store.getTrends orders startMs endMs .daily channelId ruleType)
    (store.getTrends orders startMs endMs .weekly channelId ruleType)
  daily : ∀ ruleType, Unions .daily (store.trendRows orders startMs endMs channelId ruleType)
    (TimeGranularity.bucketKey .hourly)
    (store.getTrends orders startMs endMs .hourly channelId ruleType)
    (store.getTrends orders startMs endMs .daily channelId ruleType)

variable {store : AnalyticsStore}

theorem exists_row {row : HourlyAggregate} (h : row ∈ store.between startMs endMs channelId) :
    ∃ id, (id, row) ∈ store.hourly.rows := by
  obtain ⟨⟨id, _⟩, hmem, rfl⟩ := List.mem_map.mp h
  exact ⟨id, (List.mem_filter.mp hmem).1⟩

theorem fits_between (h : Content store)
    (hsmall : events (store.between startMs endMs channelId) < 2147483648) :
    Fits (store.between startMs endMs channelId) where
  nonneg row hrow := by
    obtain ⟨id, hmem⟩ := exists_row hrow
    exact h.nonneg _ hmem
  small := hsmall

theorem fits_trendRows (h : Fits (store.between startMs endMs channelId)) (ruleType : String) :
    Fits (store.trendRows orders startMs endMs channelId ruleType) :=
  (h.filter _).perm (orders.byHour.perm _)

theorem events_trendRows (ruleType : String) :
    events (store.trendRows orders startMs endMs channelId ruleType) =
      events ((store.between startMs endMs channelId).filter fun row =>
        ruleType ≠ "" → row.ruleType = cStr ruleType) :=
  ((orders.byHour.perm _).map _).sum_eq

theorem events_trendRows_all :
    events (store.trendRows orders startMs endMs channelId "") =
      events (store.between startMs endMs channelId) := by
  rw [events_trendRows, List.filter_eq_self.mpr fun row _ => by simp]

theorem events_trendRows_type (type : RuleType) :
    events (store.trendRows orders startMs endMs channelId type.toString) =
      events ((store.between startMs endMs channelId).filter (·.ruleType = type.toString)) := by
  have hne : type.toString ≠ "" := by cases type <;> decide
  rw [events_trendRows]
  refine congrArg events (List.filter_congr fun row _ => ?_)
  rw [cStr_toString]
  simp [hne]

theorem totalEvents_getSummary (h : Fits (store.between startMs endMs channelId)) :
    (store.getSummary orders startMs endMs channelId).totalEvents =
      events (store.between startMs endMs channelId) := by
  simp only [AnalyticsStore.getSummary, totalEvents_typeGroups h, zero_add]

theorem typeCount_getSummary (hcontent : Content store)
    (h : Fits (store.between startMs endMs channelId)) (type : RuleType) :
    (store.getSummary orders startMs endMs channelId).typeCount type =
      events ((store.between startMs endMs channelId).filter (·.ruleType = type.toString)) := by
  have htext : ∀ row ∈ store.between startMs endMs channelId,
      cStr row.ruleType = row.ruleType := by
    intro row hrow
    obtain ⟨id, hmem⟩ := exists_row hrow
    exact hcontent.text (id, row) hmem
  rw [AnalyticsStore.getSummary, typeCount_activeChannels]
  exact typeCount_typeGroups h htext _ type (by cases type <;> rfl)

theorem events_getPeakHours (h : Fits (store.between startMs endMs channelId)) :
    ((store.getPeakHours orders startMs endMs channelId).map (·.eventCount)).sum =
      events (store.between startMs endMs channelId) := by
  simp only [AnalyticsStore.getPeakHours, List.map_map, Function.comp_def]
  refine sum_groups h hourOfDay ?_ fun row hrow => ?_
  · exact (orders.hoursOfDay.perm _).nodup_iff.mpr (List.nodup_dedup _)
  · exact (orders.hoursOfDay.mem).mpr (List.mem_dedup.mpr (List.mem_map_of_mem hrow))

theorem events_queryHourly (h : Fits (store.between startMs endMs channelId)) (hstart : 0 < startMs)
    (hend : 0 < endMs) :
    events (store.queryHourly orders channelId "" startMs endMs) =
      events (store.between startMs endMs channelId) := by
  have hrows : ((store.hourly.select fun row =>
      (channelId ≥ 0 → row.2.channelId = channelId) ∧
        ("" ≠ "" → row.2.ruleType = cStr "") ∧
        (startMs > 0 → startMs ≤ row.2.hourStart) ∧ (endMs > 0 → row.2.hourStart ≤ endMs)).map
      (·.2)) = store.between startMs endMs channelId := by
    refine congrArg (List.map _) (List.filter_congr fun row _ => ?_)
    simp only [inRange, hstart, hend, true_imp_iff, ne_eq, not_true_eq_false,
      false_imp_iff, true_and, decide_eq_decide]
    exact ⟨fun ⟨hc, hs, he⟩ => ⟨hs, he, hc⟩, fun ⟨hs, he, hc⟩ => ⟨hc, hs, he⟩⟩
  have hread : ∀ row ∈ orders.byHour.sort (store.between startMs endMs channelId),
      toInt32 row.eventCount = row.eventCount := fun row hrow =>
    h.toInt32_row (orders.byHour.mem.mp hrow)
  rw [AnalyticsStore.queryHourly, hrows, events, List.map_map]
  exact (congrArg List.sum (List.map_congr_left hread)).trans ((orders.byHour.perm _).map _).sum_eq

/-- **All views of a range count the same events.** -/
theorem viewsAgree (orders : QueryOrders) (store : AnalyticsStore) (startMs endMs channelId : ℤ)
    (hcontent : Content store)
    (hsmall : events (store.between startMs endMs channelId) < 2147483648) :
    ViewsAgree orders store startMs endMs channelId := by
  have hfits := fits_between hcontent hsmall
  have hbuckets : ∀ g ruleType,
      Buckets g (store.trendRows orders startMs endMs channelId ruleType)
        (store.getTrends orders startMs endMs g channelId ruleType) :=
    fun g ruleType => buckets_trendBuckets (fits_trendRows hfits ruleType)
  refine
    { trends := fun g => ?_
      peakHours := ?_
      hourly := fun hstart hend => ?_
      types := fun type g => ?_
      buckets := hbuckets
      weekly := fun ruleType =>
        unions_of_buckets ⟨7, by decide⟩ (hbuckets .daily ruleType) (hbuckets .weekly ruleType)
      daily := fun ruleType =>
        unions_of_buckets ⟨24, by decide⟩ (hbuckets .hourly ruleType) (hbuckets .daily ruleType) }
  · rw [(hbuckets g "").sum, events_trendRows_all, totalEvents_getSummary hfits]
  · rw [events_getPeakHours hfits, totalEvents_getSummary hfits]
  · rw [events_queryHourly hfits hstart hend, totalEvents_getSummary hfits]
  · rw [(hbuckets g type.toString).sum, events_trendRows_type,
      typeCount_getSummary hcontent hfits]

/-- Insertion sort, and no order where none is fixed. -/
def QueryOrders.insertion : QueryOrders where
  byHour := .byKeyAsc HourlyAggregate.hourStart
  types := .unordered
  hoursOfDay := .byKeyAsc id
  walk := .unordered
  byBucket := .byKeyAsc TrendBucket.bucketStart

/-- Two hours of different days. -/
def twoDays : AnalyticsStore :=
  let store := ({} : AnalyticsStore).upsertHourly
    { hourStart := 3600000, channelId := 1, ruleType := "cross_line", eventCount := 2 }
  store.upsertHourly
    { hourStart := 90000000, channelId := 1, ruleType := "loitering", eventCount := 3 }

theorem viewsAgree_twoDays : ViewsAgree .insertion twoDays 1 100000000 (-1) :=
  viewsAgree .insertion twoDays 1 100000000 (-1)
    { nonneg := by decide
      text := by decide }
    (by decide)

end LoongNvr.Analytics
