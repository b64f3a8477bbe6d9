import LoongNvr.Core.Types
import LoongNvr.Support.Ration
import LoongNvr.Support.Sorter
import Mathlib.Data.Prod.Lex
import Mathlib.Data.Rat.Init

/-!
# AI engine — AnalysisScheduler

The scheduler of the channels' analysis tasks: what it knows of each, and how it shares out the
GPU's time.  The clock counts nanoseconds, and each call is one critical section.  Sums, differences
and products of times wrap at 64 bits.

* `rebalanceBudget`: the budget goes to the tasks in their order.
* `lookup_rebalance_share`: what each task gets, by the turn at which its budget is counted.
-/

namespace LoongNvr.AiEngine
open LoongNvr.Core Support

/-- Scheduling strategy for analysis tasks. -/
inductive SchedulingStrategy
  | realtime
  | polling
  | onDemand
  deriving DecidableEq, Repr

/-- Configuration for a single channel's analysis task. -/
structure AnalysisTask where
  channelId : ℤ := -1
  modelName : String := ""
  confidenceThreshold : ℚ := 1 / 2
  targetFps : ℤ := 5
  strategy : SchedulingStrategy := .polling
  enabled : Bool := true

/-- Runtime statistics for a channel's analysis task. -/
structure AnalysisTaskStats where
  channelId : ℤ := -1
  actualFps : ℤ := 0
  targetFps : ℤ := 0
  totalFramesAnalyzed : ℤ := 0
  totalInferences : ℤ := 0
  avgInferenceTimeUs : ℤ := 0
  gpuTimeShare : ℚ := 0
  isThrottled : Bool := false

/-- Internal per-channel scheduling state. -/
structure TaskState where
  config : AnalysisTask := {}
  lastAnalysisTime : ℤ
  frameInterval : ℤ := 200000
  totalFramesAnalyzed : ℤ := 0
  totalInferences : ℤ := 0
  totalInferenceTimeUs : ℤ := 0
  recentInferenceTimeUs : ℤ := 0
  isThrottled : Bool := false
  effectiveFps : ℤ := 0

namespace TaskState

/-- The average inference time, 10 ms where it is not known. -/
def averageTime (state : TaskState) : ℤ :=
  if state.totalInferences > 0 then state.totalInferenceTimeUs.tdiv state.totalInferences else 10000

/-- The time the task asks for. -/
def demand (state : TaskState) : ℤ := state.averageTime * state.config.targetFps

/-- The time the task needs for its target, as it is computed. -/
def needed (state : TaskState) : ℤ := toInt64 state.demand

/-- The time the task uses at its effective rate. -/
def used (state : TaskState) : ℤ := state.averageTime * state.effectiveFps

/-- The frame interval follows a rate, unless that is no rate. -/
def withInterval (state : TaskState) (fps : ℤ) : TaskState :=
  if fps > 0 then { state with frameInterval := 1000000 / fps } else state

/-- The task at its target, with no throttling. -/
def unthrottled (state : TaskState) : TaskState :=
  { state with isThrottled := false, effectiveFps := state.config.targetFps }.withInterval
    state.config.targetFps

/-- The task throttled to a rate. -/
def throttledTo (state : TaskState) (fps : ℤ) : TaskState :=
  { state with isThrottled := true, effectiveFps := fps }.withInterval fps

/-- The interval between two analyses of a task that polls. -/
def effectiveInterval (state : TaskState) : ℤ :=
  if state.isThrottled then state.frameInterval * 2 else state.frameInterval

end TaskState

/-- Has a task that polls waited for its interval? -/
def pollDue (effectiveInterval lastAnalysisTime now : ℤ) : Bool :=
  let elapsed := (now - lastAnalysisTime).tdiv 1000
  elapsed ≥ effectiveInterval

namespace TaskState

variable (state : TaskState) (fps : ℤ)

@[simp] theorem config_withInterval : (state.withInterval fps).config = state.config := by
  unfold withInterval
  split <;> rfl

@[simp] theorem averageTime_withInterval :
    (state.withInterval fps).averageTime = state.averageTime := by
  unfold withInterval
  split <;> rfl

@[simp] theorem isThrottled_withInterval :
    (state.withInterval fps).isThrottled = state.isThrottled := by
  unfold withInterval
  split <;> rfl

@[simp] theorem effectiveFps_withInterval :
    (state.withInterval fps).effectiveFps = state.effectiveFps := by
  unfold withInterval
  split <;> rfl

theorem frameInterval_withInterval (h : 0 < fps) :
    (state.withInterval fps).frameInterval = 1000000 / fps := by
  rw [withInterval, if_pos h]

@[simp] theorem config_unthrottled : state.unthrottled.config = state.config := by
  simp [unthrottled]

@[simp] theorem averageTime_unthrottled : state.unthrottled.averageTime = state.averageTime := by
  rw [unthrottled, averageTime_withInterval]
  rfl

@[simp] theorem isThrottled_unthrottled : state.unthrottled.isThrottled = false := by
  simp [unthrottled]

@[simp] theorem effectiveFps_unthrottled :
    state.unthrottled.effectiveFps = state.config.targetFps := by
  simp [unthrottled]

@[simp] theorem config_throttledTo : (state.throttledTo fps).config = state.config := by
  simp [throttledTo]

@[simp] theorem averageTime_throttledTo :
    (state.throttledTo fps).averageTime = state.averageTime := by
  rw [throttledTo, averageTime_withInterval]
  rfl

@[simp] theorem isThrottled_throttledTo : (state.throttledTo fps).isThrottled = true := by
  simp [throttledTo]

@[simp] theorem effectiveFps_throttledTo : (state.throttledTo fps).effectiveFps = fps := by
  simp [throttledTo]

end TaskState

/-- One turn of the loop that shares out the budget: what is left of it, and the task. -/
def allocate (remainingBudget : ℤ) (state : TaskState) : ℤ × TaskState :=
  if remainingBudget ≥ state.needed then
    (toInt64 (remainingBudget - state.needed), state.unthrottled)
  else if remainingBudget > 0 ∧ state.averageTime > 0 then
    -- the quotient is an `int`, since it is below `target_fps` unless that is negative
    (0, state.throttledTo (max 1 (remainingBudget / state.averageTime)))
  else (remainingBudget, state.throttledTo 1)

/-- **What a turn does**, by what is left of the budget. -/
theorem allocate_cases (b : ℤ) (state : TaskState) :
    (state.needed ≤ b ∧ allocate b state = (toInt64 (b - state.needed), state.unthrottled)) ∨
      b < state.needed ∧
        ((0 < b ∧ 0 < state.averageTime ∧
            allocate b state = (0, state.throttledTo (max 1 (b / state.averageTime)))) ∨
          ((b ≤ 0 ∨ state.averageTime ≤ 0) ∧ allocate b state = (b, state.throttledTo 1))) := by
  unfold allocate
  by_cases henough : state.needed ≤ b
  · exact .inl ⟨henough, if_pos henough⟩
  · refine .inr ⟨not_le.mp henough, ?_⟩
    rw [if_neg henough]
    by_cases hpart : 0 < b ∧ 0 < state.averageTime
    · exact .inl ⟨hpart.1, hpart.2, if_pos hpart⟩
    · refine .inr ⟨?_, if_neg hpart⟩
      rcases not_and_or.mp hpart with hb | havg
      · exact .inl (not_lt.mp hb)
      · exact .inr (not_lt.mp havg)

@[simp] theorem config_allocate (b : ℤ) (state : TaskState) :
    (allocate b state).2.config = state.config := by
  rcases allocate_cases b state with ⟨-, h⟩ | ⟨-, ⟨-, -, h⟩ | ⟨-, h⟩⟩ <;> simp [h]

@[simp] theorem averageTime_allocate (b : ℤ) (state : TaskState) :
    (allocate b state).2.averageTime = state.averageTime := by
  rcases allocate_cases b state with ⟨-, h⟩ | ⟨-, ⟨-, -, h⟩ | ⟨-, h⟩⟩ <;> simp [h]

/-- A task is throttled exactly if the budget does not cover its need. -/
theorem isThrottled_allocate (b : ℤ) (state : TaskState) :
    (allocate b state).2.isThrottled = true ↔ b < state.needed := by
  rcases allocate_cases b state with ⟨henough, h⟩ | ⟨hshort, ⟨-, -, h⟩ | ⟨-, h⟩⟩
  · simp [h, henough]
  · simp [h, hshort]
  · simp [h, hshort]

/-- The tasks by their channels. -/
abbrev Tasks := AList fun _ : ℤ => TaskState

/-- The scheduler's state. -/
structure AnalysisScheduler where
  tasks : Tasks := ∅
  gpuBudgetUs : ℤ := 100000
  gpuUsedUs : ℤ := 0
  gpuUtilization : ℚ := 0

/-- `std::pair`'s order. -/
abbrev PairLess (a b : ℤ × ℤ) : Prop := toLex a < toLex b

namespace AnalysisScheduler

def kMaxChannels : ℕ := 64

variable (s : AnalysisScheduler)

/-- `AddTask` -/
def addTask (task : AnalysisTask) (now : ℤ) : AnalysisScheduler × Bool :=
  if s.tasks.entries.length ≥ kMaxChannels then (s, false)
  else if task.channelId ∈ s.tasks then (s, false)
  else
    let state : TaskState :=
      { config := task, lastAnalysisTime := now, effectiveFps := task.targetFps }
    ({ s with tasks := s.tasks.insert task.channelId (state.withInterval task.targetFps) }, true)

/-- `RemoveTask` -/
def removeTask (channelId : ℤ) : AnalysisScheduler × Bool :=
  ({ s with tasks := s.tasks.erase channelId }, decide (channelId ∈ s.tasks))

/-- A task that is there is changed. -/
def modifyTask (channelId : ℤ) (f : TaskState → TaskState) : AnalysisScheduler × Bool :=
  match s.tasks.lookup channelId with
  | none => (s, false)
  | some state => ({ s with tasks := s.tasks.insert channelId (f state) }, true)

/-- `UpdateTask` -/
def updateTask (channelId : ℤ) (task : AnalysisTask) : AnalysisScheduler × Bool :=
  s.modifyTask channelId fun state =>
    { state with config := { task with channelId := channelId } }.withInterval task.targetFps

/-- `SetEnabled` -/
def setEnabled (channelId : ℤ) (enabled : Bool) : AnalysisScheduler × Bool :=
  s.modifyTask channelId fun state =>
    { state with config := { state.config with enabled := enabled } }

/-- `ShouldAnalyze` -/
def shouldAnalyze (channelId now : ℤ) : AnalysisScheduler × Bool :=
  match s.tasks.lookup channelId with
  | none => (s, false)
  | some state =>
      if !state.config.enabled then (s, false)
      else
        match state.config.strategy with
        | .realtime => (s, true)
        | .polling =>
            if pollDue state.effectiveInterval state.lastAnalysisTime now then
              ((s.modifyTask channelId fun state => { state with lastAnalysisTime := now }).1, true)
            else (s, false)
        | .onDemand => (s, false)

/-- `ReportInference` -/
def reportInference (channelId inferenceTimeUs : ℤ) : AnalysisScheduler :=
  match s.modifyTask channelId fun state =>
    { state with
      totalInferences := toInt64 (state.totalInferences + 1)
      totalFramesAnalyzed := toInt64 (state.totalFramesAnalyzed + 1)
      totalInferenceTimeUs := toInt64 (state.totalInferenceTimeUs + inferenceTimeUs)
      recentInferenceTimeUs := inferenceTimeUs } with
  | (s, true) => { s with gpuUsedUs := toInt64 (s.gpuUsedUs + inferenceTimeUs) }
  | (s, false) => s

/-- `GetTaskStats` -/
def getTaskStats (channelId : ℤ) : AnalysisTaskStats :=
  match s.tasks.lookup channelId with
  | none => {}
  | some state =>
      { channelId := channelId
        targetFps := state.config.targetFps
        actualFps := state.effectiveFps
        totalFramesAnalyzed := state.totalFramesAnalyzed
        totalInferences := state.totalInferences
        isThrottled := state.isThrottled
        avgInferenceTimeUs :=
          if state.totalInferences > 0 then
            state.totalInferenceTimeUs.tdiv state.totalInferences
          else 0
        gpuTimeShare :=
          if s.gpuBudgetUs > 0 then
            toInt64 (state.recentInferenceTimeUs * state.effectiveFps) / s.gpuBudgetUs
          else 0 }

/-- `SetGpuBudget` -/
def setGpuBudget (budgetUs : ℤ) : AnalysisScheduler := { s with gpuBudgetUs := budgetUs }

/-- The entries of the tasks that are enabled. -/
def active : List (Σ _ : ℤ, TaskState) := s.tasks.entries.filter (·.2.config.enabled)

/-- The time all active tasks need; in whatever order it is summed up, the sum wraps to the same. -/
def estimatedTotal : ℤ := toInt64 (s.active.map (·.2.needed)).sum

/-- The scheduling priority of a strategy. -/
def priority : SchedulingStrategy → ℤ
  | .realtime => 0
  | .polling => 1
  | .onDemand => 2

/-- `ComputeSchedulingOrder` -/
def computeSchedulingOrder (srt : Sorter PairLess) : List ℤ :=
  (srt.sort (s.active.map fun e => (priority e.2.config.strategy, e.1))).map (·.2)

/-- One turn of the loop of `RebalanceBudget`. -/
def rebalanceTurn (acc : ℤ × Tasks) (id : ℤ) : ℤ × Tasks :=
  match acc.2.lookup id with
  | none => acc
  | some state =>
      if !state.config.enabled then acc
      else ((allocate acc.1 state).1, acc.2.insert id (allocate acc.1 state).2)

/-- `RebalanceBudget` -/
def rebalanceBudget (srt : Sorter PairLess) : AnalysisScheduler :=
  if s.tasks.entries.isEmpty then { s with gpuUtilization := 0, gpuUsedUs := 0 }
  else
    let gpuUtilization : ℚ := if s.gpuBudgetUs > 0 then s.estimatedTotal / s.gpuBudgetUs else 0
    let tasks :=
      if s.estimatedTotal > s.gpuBudgetUs then
        ((s.computeSchedulingOrder srt).foldl rebalanceTurn (s.gpuBudgetUs, s.tasks)).2
      else mapEntries (fun _ state => state.unthrottled) s.tasks
    { s with tasks := tasks, gpuUtilization := gpuUtilization, gpuUsedUs := 0 }

/-! ### The turns of the loop -/

/-- What a turn does with the budget and with the task. -/
abbrev serve (b : ℤ) (e : Σ _ : ℤ, TaskState) : ℤ × TaskState := allocate b e.2

/-- The active tasks in the scheduling order. -/
def scheduled (srt : Sorter PairLess) : List (Σ _ : ℤ, TaskState) :=
  (s.computeSchedulingOrder srt).filterMap fun id => (s.tasks.lookup id).map (Sigma.mk id)

/-- The turns of the loop, each with what is left of the budget when it comes. -/
def shares (srt : Sorter PairLess) : List (ℤ × Σ _ : ℤ, TaskState) :=
  turns serve s.gpuBudgetUs (s.scheduled srt)

variable {s} {srt : Sorter PairLess} {id : ℤ} {state : TaskState}

theorem mem_active {e : Σ _ : ℤ, TaskState} :
    e ∈ s.active ↔ s.tasks.lookup e.1 = some e.2 ∧ e.2.config.enabled = true := by
  rw [active, List.mem_filter, ← AList.mem_lookup_iff, Option.mem_def]

theorem order_perm : (s.computeSchedulingOrder srt).Perm (s.active.map (·.1)) := by
  have hperm := (srt.perm (s.active.map fun e => (priority e.2.config.strategy, e.1))).map Prod.snd
  rwa [List.map_map] at hperm

theorem nodup_order : (s.computeSchedulingOrder srt).Nodup := by
  refine order_perm.nodup_iff.mpr ?_
  exact (List.filter_sublist.map Sigma.fst).nodup s.tasks.nodupKeys

theorem mem_order : id ∈ s.computeSchedulingOrder srt ↔
    ∃ state, s.tasks.lookup id = some state ∧ state.config.enabled = true := by
  rw [order_perm.mem_iff, List.mem_map]
  constructor
  · rintro ⟨e, he, rfl⟩
    exact ⟨e.2, mem_active.mp he⟩
  · rintro ⟨state, h⟩
    exact ⟨⟨id, state⟩, mem_active.mpr h, rfl⟩

theorem mem_scheduled {e : Σ _ : ℤ, TaskState} :
    e ∈ s.scheduled srt ↔ s.tasks.lookup e.1 = some e.2 ∧ e.2.config.enabled = true := by
  rw [scheduled, List.mem_filterMap]
  constructor
  · rintro ⟨id, hid, hmap⟩
    obtain ⟨state, hstate, henabled⟩ := mem_order.mp hid
    rw [hstate] at hmap
    cases hmap
    exact ⟨hstate, henabled⟩
  · rintro ⟨hstate, henabled⟩
    exact ⟨e.1, mem_order.mpr ⟨e.2, hstate, henabled⟩, by rw [hstate]; rfl⟩

theorem map_fst_scheduled : (s.scheduled srt).map (·.1) = s.computeSchedulingOrder srt := by
  have hall : ∀ ids : List ℤ, (∀ id ∈ ids, (s.tasks.lookup id).isSome) →
      (ids.filterMap fun id => (s.tasks.lookup id).map (Sigma.mk id)).map (·.1) = ids := by
    intro ids hids
    induction ids with
    | nil => rfl
    | cons id ids ih =>
        obtain ⟨hid, hrest⟩ := List.forall_mem_cons.mp hids
        obtain ⟨state, hstate⟩ := Option.isSome_iff_exists.mp hid
        rw [List.filterMap_cons_some (by rw [hstate]; rfl), List.map_cons, ih hrest]
  refine hall _ fun id hid => ?_
  obtain ⟨state, hstate, -⟩ := mem_order.mp hid
  rw [hstate]
  rfl

variable (s srt) in
theorem map_ids_shares : (s.shares srt).map (·.2.1) = s.computeSchedulingOrder srt := by
  rw [← map_fst_scheduled, ← map_snd_turns serve s.gpuBudgetUs (s.scheduled srt),
    List.map_map]
  rfl

/-- A task has one turn. -/
theorem share_unique {t t' : ℤ × Σ _ : ℤ, TaskState} (ht : t ∈ s.shares srt)
    (ht' : t' ∈ s.shares srt) (h : t.2.1 = t'.2.1) : t = t' := by
  refine List.inj_on_of_nodup_map (f := fun t => t.2.1) ?_ ht ht' h
  rw [map_ids_shares s srt]
  exact nodup_order

/-- The turn of an active task. -/
theorem exists_share (srt : Sorter PairLess) (hstate : s.tasks.lookup id = some state)
    (henabled : state.config.enabled = true) : ∃ b, (b, ⟨id, state⟩) ∈ s.shares srt := by
  obtain ⟨⟨b, e⟩, ht, rfl⟩ := exists_turn serve s.gpuBudgetUs
    (mem_scheduled.mpr ⟨hstate, henabled⟩ : ⟨id, state⟩ ∈ s.scheduled srt)
  exact ⟨b, ht⟩

/-- The task of a turn. -/
theorem share_task {t : ℤ × Σ _ : ℤ, TaskState} (ht : t ∈ s.shares srt) :
    s.tasks.lookup t.2.1 = some t.2.2 ∧ t.2.2.config.enabled = true :=
  mem_scheduled.mp (mem_of_mem_turns ht)

/-- **The loop**, turn by turn. -/
theorem foldl_rebalanceTurn (es : List (Σ _ : ℤ, TaskState)) (hnodup : (es.map (·.1)).Nodup) (b : ℤ)
    (m : Tasks) (hes : ∀ e ∈ es, m.lookup e.1 = some e.2 ∧ e.2.config.enabled = true) :
    let r := (es.map (·.1)).foldl rebalanceTurn (b, m)
    (∀ t ∈ turns serve b es, r.2.lookup t.2.1 = some (allocate t.1 t.2.2).2) ∧
      ∀ id ∉ es.map (·.1), r.2.lookup id = m.lookup id := by
  induction es generalizing b m with
  | nil =>
      exact And.intro (fun t ht => nomatch ht) fun id _ => rfl
  | cons e es ih =>
      obtain ⟨hnew, hrest⟩ := List.nodup_cons.mp hnodup
      obtain ⟨⟨he, henabled⟩, hes⟩ := List.forall_mem_cons.mp hes
      have hturn : rebalanceTurn (b, m) e.1 =
          ((allocate b e.2).1, m.insert e.1 (allocate b e.2).2) := by
        simp [rebalanceTurn, he, henabled]
      have hkept : ∀ e' ∈ es, (m.insert e.1 (allocate b e.2).2).lookup e'.1 = some e'.2 ∧
          e'.2.config.enabled = true := by
        intro e' he'
        have hne : e'.1 ≠ e.1 := fun h => hnew (List.mem_map.mpr ⟨e', he', h⟩)
        rw [AList.lookup_insert_ne hne]
        exact hes e' he'
      obtain ⟨hturns, hothers⟩ := ih hrest (allocate b e.2).1 _ hkept
      simp only [List.map_cons, List.foldl_cons, hturn]
      refine ⟨List.forall_mem_cons.mpr ⟨?_, hturns⟩, fun id hid => ?_⟩
      · rw [hothers e.1 hnew, AList.lookup_insert]
      · rw [hothers id (List.not_mem_of_not_mem_cons hid),
          AList.lookup_insert_ne (List.ne_of_not_mem_cons hid)]

/-- A task with what its turn gives it. -/
theorem lookup_rebalance_share (hover : s.gpuBudgetUs < s.estimatedTotal)
    {t : ℤ × Σ _ : ℤ, TaskState} (ht : t ∈ s.shares srt) :
    (s.rebalanceBudget srt).tasks.lookup t.2.1 = some (allocate t.1 t.2.2).2 := by
  have hne : s.tasks.entries.isEmpty = false := by
    have hmem := AList.mem_lookup_iff.mp (share_task ht).1
    exact List.isEmpty_eq_false_iff_exists_mem.mpr ⟨_, hmem⟩
  have hloop := foldl_rebalanceTurn (s.scheduled srt) (by rw [map_fst_scheduled]; exact nodup_order)
    s.gpuBudgetUs s.tasks fun e he => mem_scheduled.mp he
  rw [map_fst_scheduled] at hloop
  rw [rebalanceBudget, hne, if_neg Bool.false_ne_true, if_pos hover]
  exact hloop.1 t ht

/-- A task without a turn is left alone. -/
theorem lookup_rebalance_other (hover : s.gpuBudgetUs < s.estimatedTotal)
    (hid : id ∉ s.computeSchedulingOrder srt) :
    (s.rebalanceBudget srt).tasks.lookup id = s.tasks.lookup id := by
  have hloop := foldl_rebalanceTurn (s.scheduled srt) (by rw [map_fst_scheduled]; exact nodup_order)
    s.gpuBudgetUs s.tasks fun e he => mem_scheduled.mp he
  rw [map_fst_scheduled] at hloop
  unfold rebalanceBudget
  split
  · rfl
  · exact hloop.2 id hid

/-- A task where the budget is enough for all. -/
theorem lookup_rebalance_under (hunder : s.estimatedTotal ≤ s.gpuBudgetUs) :
    (s.rebalanceBudget srt).tasks.lookup id = (s.tasks.lookup id).map (·.unthrottled) := by
  unfold rebalanceBudget
  split
  · next hempty =>
      have hnone : s.tasks.lookup id = none := by
        rw [AList.lookup_eq_none, AList.mem_keys, AList.keys, List.isEmpty_iff.mp hempty]
        exact List.not_mem_nil
      simp [hnone]
  · rw [if_neg (not_lt.mpr hunder)]
    exact lookup_mapEntries (fun _ state => TaskState.unthrottled state) s.tasks id

end AnalysisScheduler

end LoongNvr.AiEngine
