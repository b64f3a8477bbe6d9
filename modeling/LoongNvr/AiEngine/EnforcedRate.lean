import LoongNvr.AiEngine.AnalysisScheduler
import LoongNvr.Support.Window
import Mathlib.Tactic.NormNum

/-!
# AI engine — EnforcedRate

The rate that `GetTaskStats` reports and the rate at which `ShouldAnalyze` lets frames through.

* `SchedulerCall`: the calls of the scheduler; `Leaves`: those that leave a task as it is set.
* `answers_eq_gate`: what the polls of a task are answered is what a gate answers them.
* `rateEnforced_iff_interval`: the rate is enforced when the interval is that of the rate.
* `rateEnforced_iff`: after a rebalance it is, unless the task is throttled.
-/

namespace LoongNvr.AiEngine
open LoongNvr.Core Support

/-- The calls of the scheduler, with the time at which they are made where they ask for it. -/
inductive SchedulerCall
  | addTask (task : AnalysisTask) (now : ℤ)
  | removeTask (channelId : ℤ)
  | updateTask (channelId : ℤ) (task : AnalysisTask)
  | setEnabled (channelId : ℤ) (enabled : Bool)
  | shouldAnalyze (channelId now : ℤ)
  | reportInference (channelId inferenceTimeUs : ℤ)
  | setGpuBudget (budgetUs : ℤ)
  | rebalanceBudget

namespace SchedulerCall

/-- The call neither rebalances nor changes the task or its place. -/
def Leaves (id : ℤ) : SchedulerCall → Prop
  | removeTask channelId | updateTask channelId _ | setEnabled channelId _ => channelId ≠ id
  | rebalanceBudget => False
  | addTask .. | shouldAnalyze .. | reportInference .. | setGpuBudget _ => True

/-- The time of a poll of the task. -/
def pollTime (id : ℤ) : SchedulerCall → Option ℤ
  | shouldAnalyze channelId now => if channelId = id then some now else none
  | _ => none

end SchedulerCall

namespace AnalysisScheduler

variable (srt : Sorter PairLess) (s : AnalysisScheduler)

/-- The scheduler after a call. -/
def after : SchedulerCall → AnalysisScheduler
  | .addTask task now => (s.addTask task now).1
  | .removeTask channelId => (s.removeTask channelId).1
  | .updateTask channelId task => (s.updateTask channelId task).1
  | .setEnabled channelId enabled => (s.setEnabled channelId enabled).1
  | .shouldAnalyze channelId now => (s.shouldAnalyze channelId now).1
  | .reportInference channelId inferenceTimeUs => s.reportInference channelId inferenceTimeUs
  | .setGpuBudget budgetUs => s.setGpuBudget budgetUs
  | .rebalanceBudget => s.rebalanceBudget srt

/-- The polls of a task with their answers. -/
def answers (id : ℤ) : AnalysisScheduler → List SchedulerCall → List (ℤ × Bool)
  | _, [] => []
  | s, call :: calls =>
      match call.pollTime id with
      | some now => (now, (s.shouldAnalyze id now).2) :: answers id (s.after srt call) calls
      | none => answers id (s.after srt call) calls

/-- When the task was last analysed, or added. -/
def lastAnalysis (id : ℤ) : Option ℤ := (s.tasks.lookup id).map (·.lastAnalysisTime)

/-- **The reported rate is the enforced one**: whatever is called while the task stays as it is set,
its polls are answered with yes exactly when the reported rate's interval has passed since the last
such answer, be it of these or of one before. -/
def RateEnforced (id : ℤ) : Prop :=
  ∀ (calls : List SchedulerCall) (last : Option ℤ), (∀ call ∈ calls, call.Leaves id) →
    last = none ∨ last = s.lastAnalysis id →
    (∀ t ∈ s.lastAnalysis id, (t :: calls.filterMap (·.pollTime id)).Pairwise (· ≤ ·)) →
    Paced (1000 * (1000000 / (s.getTaskStats id).actualFps)) last (s.answers srt id calls)

variable {srt s} {id : ℤ} {state : TaskState}

/-! ### Calls that leave the task -/

theorem lookup_modifyTask (channelId : ℤ) (f : TaskState → TaskState) :
    (s.modifyTask channelId f).1.tasks.lookup id =
      if channelId = id then (s.tasks.lookup id).map f else s.tasks.lookup id := by
  unfold modifyTask
  by_cases hid : channelId = id
  · subst hid
    rw [if_pos rfl]
    cases hlookup : s.tasks.lookup channelId with
    | none => exact hlookup
    | some state => exact AList.lookup_insert s.tasks
  · rw [if_neg hid]
    split
    · rfl
    · exact AList.lookup_insert_ne (Ne.symm hid)

theorem lookup_addTask {task : AnalysisTask} {now : ℤ} (hstate : s.tasks.lookup id = some state) :
    (s.addTask task now).1.tasks.lookup id = some state := by
  have hid : id ∈ s.tasks := AList.lookup_isSome.mp (by rw [hstate]; rfl)
  unfold addTask
  split
  · exact hstate
  · split
    · exact hstate
    · next hnew =>
        have hne : id ≠ task.channelId := fun h => hnew (h ▸ hid)
        exact (AList.lookup_insert_ne hne).trans hstate

theorem tasks_reportInference (channelId t : ℤ) :
    (s.reportInference channelId t).tasks = (s.modifyTask channelId fun state =>
      { state with
        totalInferences := toInt64 (state.totalInferences + 1)
        totalFramesAnalyzed := toInt64 (state.totalFramesAnalyzed + 1)
        totalInferenceTimeUs := toInt64 (state.totalInferenceTimeUs + t)
        recentInferenceTimeUs := t }).1.tasks := by
  unfold reportInference
  split <;> next h => rw [h]

/-- **A poll** of the task. -/
theorem shouldAnalyze_polling (hstate : s.tasks.lookup id = some state)
    (henabled : state.config.enabled = true) (hpolling : state.config.strategy = .polling)
    (now : ℤ) :
    (s.shouldAnalyze id now).2 = pollDue state.effectiveInterval state.lastAnalysisTime now ∧
      (s.shouldAnalyze id now).1.tasks.lookup id =
        some { state with
          lastAnalysisTime :=
            if pollDue state.effectiveInterval state.lastAnalysisTime now then now
            else state.lastAnalysisTime } := by
  simp only [shouldAnalyze, hstate, henabled, hpolling, Bool.not_true, Bool.false_eq_true, if_false]
  split
  · exact ⟨(by assumption : _ = true).symm, by rw [lookup_modifyTask, if_pos rfl, hstate]; rfl⟩
  · next hnot => exact ⟨(Bool.not_eq_true _ ▸ hnot).symm, hstate⟩

theorem lookup_shouldAnalyze_ne {channelId : ℤ} (hid : channelId ≠ id) (now : ℤ) :
    (s.shouldAnalyze channelId now).1.tasks.lookup id = s.tasks.lookup id := by
  unfold shouldAnalyze
  split
  · rfl
  · split
    · rfl
    · split
      · rfl
      · split
        · rw [lookup_modifyTask, if_neg hid]
        · rfl
      · rfl

/-- What is the same of a task while it stays as it is set. -/
structure Alike (state state' : TaskState) : Prop where
  config : state'.config = state.config
  interval : state'.effectiveInterval = state.effectiveInterval
  last : state'.lastAnalysisTime = state.lastAnalysisTime

/-- **A call that is no poll of the task** and leaves it. -/
theorem lookup_after {call : SchedulerCall} (hleaves : call.Leaves id)
    (hpoll : call.pollTime id = none) (hstate : s.tasks.lookup id = some state) :
    ∃ state', (s.after srt call).tasks.lookup id = some state' ∧ Alike state state' := by
  cases call with
  | addTask task now => exact ⟨state, lookup_addTask hstate, rfl, rfl, rfl⟩
  | removeTask channelId =>
      exact ⟨state, (AList.lookup_erase_ne (Ne.symm hleaves)).trans hstate, rfl, rfl, rfl⟩
  | updateTask channelId task =>
      refine ⟨state, ?_, rfl, rfl, rfl⟩
      simp only [after, updateTask]
      rw [lookup_modifyTask, if_neg hleaves, hstate]
  | setEnabled channelId enabled =>
      refine ⟨state, ?_, rfl, rfl, rfl⟩
      simp only [after, setEnabled]
      rw [lookup_modifyTask, if_neg hleaves, hstate]
  | shouldAnalyze channelId now =>
      have hid : channelId ≠ id := by
        intro h
        simp [SchedulerCall.pollTime, h] at hpoll
      exact ⟨state, (lookup_shouldAnalyze_ne hid now).trans hstate, rfl, rfl, rfl⟩
  | reportInference channelId t =>
      simp only [after, tasks_reportInference]
      rw [lookup_modifyTask, hstate]
      split
      · exact ⟨_, rfl, rfl, rfl, rfl⟩
      · exact ⟨state, rfl, rfl, rfl, rfl⟩
  | setGpuBudget budgetUs => exact ⟨state, hstate, rfl, rfl, rfl⟩
  | rebalanceBudget => exact absurd hleaves not_false

/-- **The polls of a task** are answered as by a gate. -/
theorem answers_eq_gate {calls : List SchedulerCall} (hleaves : ∀ call ∈ calls, call.Leaves id)
    (hstate : s.tasks.lookup id = some state) (henabled : state.config.enabled = true)
    (hpolling : state.config.strategy = .polling) :
    s.answers srt id calls = gate (pollDue state.effectiveInterval) state.lastAnalysisTime
      (calls.filterMap (·.pollTime id)) := by
  induction calls generalizing s state with
  | nil => rfl
  | cons call calls ih =>
      obtain ⟨hcall, hcalls⟩ := List.forall_mem_cons.mp hleaves
      cases hpoll : call.pollTime id with
      | none =>
          obtain ⟨state', hstate', halike⟩ : ∃ state', (s.after srt call).tasks.lookup id =
              some state' ∧ Alike state state' := lookup_after hcall hpoll hstate
          have hrest := ih hcalls hstate' (halike.config ▸ henabled) (halike.config ▸ hpolling)
          rw [halike.interval, halike.last] at hrest
          rw [answers, List.filterMap_cons_none hpoll, hpoll, hrest]
      | some now =>
          have hcall : call = .shouldAnalyze id now := by
            cases call with
            | shouldAnalyze channelId t =>
                rw [SchedulerCall.pollTime, Option.ite_none_right_eq_some] at hpoll
                obtain ⟨rfl, heq⟩ := hpoll
                cases heq
                rfl
            | _ => cases hpoll
          subst hcall
          obtain ⟨hanswer, hlater⟩ := shouldAnalyze_polling hstate henabled hpolling now
          rw [answers, List.filterMap_cons_some hpoll, hpoll, gate, ← hanswer]
          rw [← hanswer] at hlater
          exact congrArg _ (ih hcalls hlater henabled hpolling)

/-! ### The interval -/

/-- When a task is due, in nanoseconds. -/
theorem pollDue_iff {interval last now : ℤ} (hinterval : 0 ≤ interval) (hlast : last ≤ now) :
    pollDue interval last now = true ↔ 1000 * interval ≤ now - last := by
  rw [pollDue, decide_eq_true_eq, ge_iff_le]
  have helapsed : 0 ≤ now - last := sub_nonneg.mpr hlast
  rcases hinterval.eq_or_lt with hzero | hpos
  · rw [← hzero, mul_zero]
    exact iff_of_true (Int.tdiv_nonneg helapsed (by norm_num)) helapsed
  · rw [le_tdiv_iff hpos (by norm_num), mul_comm]

/-- **When the reported rate is enforced**, of a task that polls. -/
theorem rateEnforced_iff_interval (hstate : s.tasks.lookup id = some state)
    (henabled : state.config.enabled = true) (hpolling : state.config.strategy = .polling)
    (hfps : 0 ≤ state.effectiveFps) (hinterval : 0 ≤ state.effectiveInterval) :
    s.RateEnforced srt id ↔ state.effectiveInterval = 1000000 / state.effectiveFps := by
  have hlast : s.lastAnalysis id = some state.lastAnalysisTime := by
    rw [lastAnalysis, hstate]
    rfl
  have hreported : (s.getTaskStats id).actualFps = state.effectiveFps := by
    rw [getTaskStats, hstate]
  have hdue : ∀ last now, last ≤ now → (pollDue state.effectiveInterval last now = true ↔
      1000 * state.effectiveInterval ≤ now - last) := fun _ _ => pollDue_iff hinterval
  constructor
  · intro henforced
    have hgate : ∀ times, (state.lastAnalysisTime :: times).Pairwise (· ≤ ·) →
        Paced (1000 * (1000000 / state.effectiveFps)) none
          (gate (pollDue state.effectiveInterval) state.lastAnalysisTime times) := by
      intro times htimes
      have hleaves : ∀ call ∈ times.map (SchedulerCall.shouldAnalyze id), call.Leaves id := by
        intro call hcall
        obtain ⟨now, -, rfl⟩ := List.mem_map.mp hcall
        trivial
      have hpolls : (times.map (SchedulerCall.shouldAnalyze id)).filterMap (·.pollTime id) =
          times := by
        rw [List.filterMap_map]
        exact (List.filterMap_congr fun now _ => if_pos rfl).trans List.filterMap_some
      have hpaced := henforced (times.map (.shouldAnalyze id)) none hleaves (.inl rfl)
      rw [hlast, hreported, answers_eq_gate hleaves hstate henabled hpolling, hpolls] at hpaced
      refine hpaced fun t ht => ?_
      cases ht
      exact htimes
    have hquot : 0 ≤ 1000000 / state.effectiveFps := Int.ediv_nonneg (by norm_num) hfps
    have heq := eq_of_paced (mul_nonneg (by norm_num) hquot) (mul_nonneg (by norm_num) hinterval)
      hdue state.lastAnalysisTime hgate
    exact mul_left_cancel₀ (by norm_num) heq
  · intro heq calls last hleaves hbefore htimes
    rw [hreported, ← heq, answers_eq_gate hleaves hstate henabled hpolling]
    have hpaced := paced_gate hdue (htimes _ hlast)
    rw [hlast] at hbefore
    rcases hbefore with rfl | rfl
    · exact hpaced.forget
    · exact hpaced

/-! ### After a rebalance -/

/-- What is left of the budget at the task's turn covers what it needs, or over a million frames. -/
def Covered (s : AnalysisScheduler) (srt : Sorter PairLess) (id : ℤ) : Prop :=
  s.gpuBudgetUs < s.estimatedTotal → ∀ t ∈ s.shares srt, t.2.1 = id →
    t.1 < t.2.2.needed → 0 < t.2.2.averageTime ∧ 1000000 < t.1 / t.2.2.averageTime

theorem interval_nonneg (hfps : 1 ≤ state.effectiveFps)
    (hframe : state.frameInterval = 1000000 / state.effectiveFps) :
    0 ≤ state.effectiveInterval := by
  have hnonneg : 0 ≤ state.frameInterval := by
    rw [hframe]
    exact Int.ediv_nonneg (by norm_num) (zero_le_one.trans hfps)
  rw [TaskState.effectiveInterval]
  split
  · exact mul_nonneg hnonneg (by norm_num)
  · exact hnonneg

/-- The frame interval is that of the effective rate, and stretched once more if the task is
throttled. -/
theorem interval_eq_iff (hfps : 1 ≤ state.effectiveFps)
    (hframe : state.frameInterval = 1000000 / state.effectiveFps) :
    state.effectiveInterval = 1000000 / state.effectiveFps ↔
      (state.isThrottled = true → 1000000 < state.effectiveFps) := by
  have hnonneg : 0 ≤ 1000000 / state.effectiveFps :=
    Int.ediv_nonneg (by norm_num) (zero_le_one.trans hfps)
  rw [TaskState.effectiveInterval, hframe]
  cases state.isThrottled with
  | false => simp
  | true =>
      have hwhole : 1 ≤ 1000000 / state.effectiveFps ↔ state.effectiveFps ≤ 1000000 := by
        rw [Int.le_ediv_iff_mul_le (zero_lt_one.trans_le hfps), one_mul]
      simp only [if_true, forall_const, ← not_le, ← hwhole]
      omega

/-- **The interval of a turn** is that of the rate it gives. -/
theorem frame_allocate (b : ℤ) (htarget : 1 ≤ state.config.targetFps) :
    1 ≤ (allocate b state).2.effectiveFps ∧
      (allocate b state).2.frameInterval = 1000000 / (allocate b state).2.effectiveFps := by
  rcases allocate_cases b state with ⟨-, h⟩ | ⟨-, ⟨-, -, h⟩ | ⟨-, h⟩⟩
  · rw [h, TaskState.effectiveFps_unthrottled]
    exact ⟨htarget, TaskState.frameInterval_withInterval _ _ htarget⟩
  · rw [h, TaskState.effectiveFps_throttledTo]
    have hfps : 1 ≤ max 1 (b / state.averageTime) := le_max_left _ _
    exact ⟨hfps, TaskState.frameInterval_withInterval _ _ hfps⟩
  · rw [h, TaskState.effectiveFps_throttledTo]
    exact ⟨le_rfl, TaskState.frameInterval_withInterval _ _ zero_lt_one⟩

/-- A turn leaves the interval at that of the rate where it does not throttle, or where it gives
over a million frames. -/
theorem fast_allocate_iff (b : ℤ) (state : TaskState) :
    ((allocate b state).2.isThrottled = true → 1000000 < (allocate b state).2.effectiveFps) ↔
      (b < state.needed → 0 < state.averageTime ∧ 1000000 < b / state.averageTime) := by
  rw [isThrottled_allocate]
  refine forall_congr' fun hshort => ?_
  rcases allocate_cases b state with ⟨henough, -⟩ | ⟨-, ⟨-, havg, h⟩ | ⟨hnone, h⟩⟩
  · exact absurd hshort (not_lt.mpr henough)
  · rw [h, TaskState.effectiveFps_throttledTo, lt_max_iff]
    simp [havg]
  · rw [h, TaskState.effectiveFps_throttledTo]
    refine iff_of_false (by norm_num) fun ⟨havg, hmany⟩ => ?_
    have hb : b ≤ 0 := hnone.resolve_right (not_le.mpr havg)
    have hquot : b / state.averageTime ≤ 0 := Int.ediv_nonpos_of_nonpos_of_neg hb havg
    exact absurd hmany (by linarith)

/-- **The reported rate is enforced** on a polling task after a rebalance exactly if what is left of
the budget at its turn covers it. -/
theorem rateEnforced_iff (hstate : s.tasks.lookup id = some state)
    (henabled : state.config.enabled = true) (hpolling : state.config.strategy = .polling)
    (htarget : 1 ≤ state.config.targetFps) :
    (s.rebalanceBudget srt).RateEnforced srt id ↔ s.Covered srt id := by
  by_cases hover : s.gpuBudgetUs < s.estimatedTotal
  · obtain ⟨b, ht⟩ := exists_share srt hstate henabled
    obtain ⟨hfps, hframe⟩ := frame_allocate b htarget
    have hinterval := interval_eq_iff hfps hframe
    have honly : s.Covered srt id ↔
        (b < state.needed → 0 < state.averageTime ∧ 1000000 < b / state.averageTime) := by
      constructor
      · intro hcovered
        exact hcovered hover (b, ⟨id, state⟩) ht rfl
      · intro hcovered _ t ht' hid
        cases share_unique ht' ht hid
        exact hcovered
    have hlookup : (s.rebalanceBudget srt).tasks.lookup id = some (allocate b state).2 :=
      lookup_rebalance_share hover ht
    rw [honly, ← fast_allocate_iff, ← hinterval]
    refine rateEnforced_iff_interval hlookup ?_ ?_ (zero_le_one.trans hfps)
      (interval_nonneg hfps hframe)
    · rwa [config_allocate]
    · rwa [config_allocate]
  · have hlookup : (s.rebalanceBudget srt).tasks.lookup id = some state.unthrottled := by
      rw [lookup_rebalance_under (not_lt.mp hover), hstate]
      rfl
    have hframe : state.unthrottled.frameInterval = 1000000 / state.unthrottled.effectiveFps := by
      rw [TaskState.effectiveFps_unthrottled]
      exact TaskState.frameInterval_withInterval _ _ htarget
    have hfps : 1 ≤ state.unthrottled.effectiveFps := by
      rwa [TaskState.effectiveFps_unthrottled]
    refine iff_of_true ?_ fun h => absurd h hover
    refine (rateEnforced_iff_interval hlookup ?_ ?_ (zero_le_one.trans hfps)
      (interval_nonneg hfps hframe)).mpr ((interval_eq_iff hfps hframe).mpr ?_)
    · rwa [TaskState.config_unthrottled]
    · rwa [TaskState.config_unthrottled]
    · simp

/-- The theorem, of a task that the budget covers. -/
theorem rateEnforced_covered :
    ((({} : AnalysisScheduler).addTask { channelId := 1 } 0).1.rebalanceBudget
      (.byKeyAsc toLex)).RateEnforced (.byKeyAsc toLex) 1 :=
  (rateEnforced_iff rfl rfl rfl (by decide)).mpr fun h => absurd h (by decide)

/-- A task that gets ten frames a second of the twenty it asks for is let through five times. -/
theorem rateEnforced_refuted :
    ¬ ((({} : AnalysisScheduler).addTask { channelId := 1, targetFps := 20 } 0).1.rebalanceBudget
      (.byKeyAsc toLex)).RateEnforced (.byKeyAsc toLex) 1 := by
  rw [rateEnforced_iff_interval rfl rfl rfl (by decide) (by decide)]
  decide

end AnalysisScheduler

end LoongNvr.AiEngine
