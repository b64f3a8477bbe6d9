import LoongNvr.AiEngine.AnalysisScheduler
import Mathlib.Algebra.Order.BigOperators.Group.List
import Mathlib.Data.Finset.Dedup
import Mathlib.Data.Finset.Order
import Mathlib.Tactic.NormNum

/-!
# AI engine — GpuBudget

What `RebalanceBudget` makes of any set of tasks: the budget is kept but for the frames that are
always given, and who comes first is served first, where the 64-bit sums and products fit.

* `Fits`: they do; `Fits.of_nonneg`: as long as no time is negative, the total decides.
* `used_allocate_le`: what one turn spends.
* `active_rebalance`: the active tasks afterwards, by their turns.
* `budgetKept`: the budget and the throttling of the active tasks.
* `budgetKept_refuted`: a task that is not active keeps what it had, and a need that overflows is
  served whatever the budget.
-/

namespace LoongNvr.AiEngine
open LoongNvr.Core Support

/-! ### One turn -/

variable {b : ℤ} {state : TaskState}

/-- Is the frame a second that every active task gets not covered? -/
def TaskState.floored (b : ℤ) (state : TaskState) : Bool :=
  b < state.needed ∧ b < state.averageTime

/-- What a task asks for fits in 64 bits. -/
def TaskState.Fits (state : TaskState) : Prop := IsInt64 state.demand

theorem TaskState.Fits.needed_eq (h : state.Fits) : state.needed = state.demand :=
  toInt64_of_isInt64 h

/-- A need that is not covered is one of frames. -/
theorem pos_of_short (hfits : state.Fits) (hb : 0 ≤ b) (htarget : 0 ≤ state.config.targetFps)
    (h : b < state.needed) : 0 < state.averageTime ∧ 0 < state.config.targetFps := by
  rw [hfits.needed_eq] at h
  have hneeded : 0 < state.averageTime * state.config.targetFps := lt_of_le_of_lt hb h
  rcases pos_and_pos_or_neg_and_neg_of_mul_pos hneeded with hpos | ⟨-, hneg⟩
  · exact hpos
  · exact absurd htarget (not_le.mpr hneg)

/-- A turn leaves a budget that is not negative, if what it leaves fits. -/
theorem left_allocate_nonneg (hleft : state.needed ≤ b → IsInt64 (b - state.needed)) (hb : 0 ≤ b) :
    0 ≤ (allocate b state).1 := by
  rcases allocate_cases b state with ⟨henough, h⟩ | ⟨-, ⟨-, -, h⟩ | ⟨-, h⟩⟩
  · rw [h, toInt64_of_isInt64 (hleft henough)]
    exact sub_nonneg.mpr henough
  · rw [h]
  · rw [h]
    exact hb

/-- What a turn leaves fits, where there was no less than nothing and no more than a number that
fits. -/
theorem isInt64_left {bound : ℤ} (hbound : IsInt64 bound) (hb : b ≤ bound)
    (hneeded : 0 ≤ state.needed) (henough : state.needed ≤ b) : IsInt64 (b - state.needed) := by
  unfold IsInt64 at *
  omega

/-- A turn leaves no more than there was. -/
theorem left_allocate_le {bound : ℤ} (hbound : IsInt64 bound) (hb : b ≤ bound)
    (hneeded : 0 ≤ state.needed) : (allocate b state).1 ≤ max 0 b := by
  rcases allocate_cases b state with ⟨henough, h⟩ | ⟨-, ⟨-, -, h⟩ | ⟨-, h⟩⟩
  · rw [h, toInt64_of_isInt64 (isInt64_left hbound hb hneeded henough)]
    exact le_max_of_le_right (Int.sub_le_self b hneeded)
  · rw [h]
    exact le_max_left 0 b
  · rw [h]
    exact le_max_right 0 b

/-- Once a need is not covered, nothing is left. -/
theorem left_allocate_nonpos (hfits : state.Fits) (haverage : 0 ≤ state.averageTime)
    (hshort : b < state.needed) : (allocate b state).1 ≤ 0 := by
  rcases allocate_cases b state with ⟨henough, -⟩ | ⟨-, ⟨-, -, h⟩ | ⟨hnone, h⟩⟩
  · exact absurd henough (not_le.mpr hshort)
  · rw [h]
  · rw [h]
    rcases hnone with hb | havg
    · exact hb
    · -- a task without a time needs nothing
      have hzero : state.averageTime = 0 := le_antisymm havg haverage
      rw [hfits.needed_eq, TaskState.demand, hzero, zero_mul] at hshort
      exact hshort.le

theorem effectiveFps_allocate_le (hfits : state.Fits) (hb : 0 ≤ b)
    (htarget : 0 ≤ state.config.targetFps) :
    (allocate b state).2.effectiveFps ≤ state.config.targetFps := by
  rcases allocate_cases b state with ⟨-, h⟩ | ⟨hshort, ⟨-, -, h⟩ | ⟨-, h⟩⟩
  · simp [h]
  · obtain ⟨havg, hfps⟩ := pos_of_short hfits hb htarget hshort
    have hquot : b / state.averageTime < state.config.targetFps := by
      refine Int.ediv_lt_of_lt_mul havg ?_
      rwa [mul_comm, ← TaskState.demand, ← hfits.needed_eq]
    simp only [h, TaskState.effectiveFps_throttledTo]
    exact max_le hfps hquot.le
  · obtain ⟨-, hfps⟩ := pos_of_short hfits hb htarget hshort
    simp only [h, TaskState.effectiveFps_throttledTo]
    exact hfps

/-- **What one turn spends** is taken from the budget, but for a frame that it does not cover. -/
theorem used_allocate_le (hfits : state.Fits)
    (hleft : state.needed ≤ b → IsInt64 (b - state.needed)) (hb : 0 ≤ b)
    (htarget : 0 ≤ state.config.targetFps) :
    (allocate b state).2.used ≤
      b - (allocate b state).1 + if state.floored b then state.averageTime else 0 := by
  rw [TaskState.used, averageTime_allocate]
  rcases allocate_cases b state with ⟨henough, h⟩ | ⟨hshort, ⟨hpos, havg, h⟩ | ⟨hnone, h⟩⟩
  · have hfloored : state.floored b = false := by
      simp [TaskState.floored, not_lt.mpr henough]
    rw [h, toInt64_of_isInt64 (hleft henough), hfits.needed_eq]
    simp [hfloored, TaskState.demand]
  · simp only [h, TaskState.effectiveFps_throttledTo, sub_zero]
    by_cases hframe : b < state.averageTime
    · have hfloored : state.floored b = true := by
        simp [TaskState.floored, hshort, hframe]
      have hquot : b / state.averageTime = 0 := Int.ediv_eq_zero_of_lt hb hframe
      rw [hquot, if_pos hfloored, max_eq_left zero_le_one, mul_one]
      exact le_add_of_nonneg_left hb
    · have hfloored : state.floored b = false := by
        simp [TaskState.floored, hframe]
      have hquot : 1 ≤ b / state.averageTime :=
        (Int.le_ediv_iff_mul_le havg).mpr (by rw [one_mul]; exact not_lt.mp hframe)
      rw [hfloored, max_eq_right hquot]
      simpa using Int.mul_ediv_self_le havg.ne'
  · -- what is left does not cover a frame, since nothing is
    obtain ⟨havg, -⟩ := pos_of_short hfits hb htarget hshort
    have hzero : b = 0 := le_antisymm (hnone.resolve_right (not_le.mpr havg)) hb
    have hfloored : state.floored b = true := by
      exact decide_eq_true ⟨hshort, by rw [hzero]; exact havg⟩
    simp [h, hfloored]

/-! ### All turns -/

namespace AnalysisScheduler

variable {s : AnalysisScheduler} {srt : Sorter PairLess} {id : ℤ}

/-- Did the remaining budget not cover the task's need at its turn? -/
def short (s : AnalysisScheduler) (srt : Sorter PairLess) (id : ℤ) : Bool :=
  s.gpuBudgetUs < s.estimatedTotal ∧
    (s.shares srt).any fun t => t.2.1 = id ∧ t.1 < t.2.2.needed

/-- Was the task floored to one frame a second for lack of budget? -/
def floored (s : AnalysisScheduler) (srt : Sorter PairLess) (id : ℤ) : Bool :=
  s.gpuBudgetUs < s.estimatedTotal ∧
    (s.shares srt).any fun t => t.2.1 = id ∧ t.2.2.floored t.1

/-- What is asked of all tasks at their turns, asked of one. -/
theorem any_share {t : ℤ × Σ _ : ℤ, TaskState} (ht : t ∈ s.shares srt) (p : ℤ → TaskState → Bool) :
    ((s.shares srt).any fun t' => t'.2.1 = t.2.1 ∧ p t'.1 t'.2.2) = p t.1 t.2.2 := by
  rw [Bool.eq_iff_iff, List.any_eq_true]
  constructor
  · rintro ⟨t', ht', hp⟩
    obtain ⟨hid, hp⟩ := of_decide_eq_true hp
    exact share_unique ht' ht hid ▸ hp
  · exact fun hp => ⟨t, ht, decide_eq_true ⟨rfl, hp⟩⟩

variable (srt) in
/-- **The active tasks afterwards.** -/
theorem active_rebalance (hover : s.gpuBudgetUs < s.estimatedTotal) :
    (s.rebalanceBudget srt).active.Perm
      ((s.shares srt).map fun t => ⟨t.2.1, (allocate t.1 t.2.2).2⟩) := by
  refine entries_perm (m := (s.rebalanceBudget srt).tasks)
    (p := fun state => state.config.enabled) ?_ fun id state => ?_
  · rw [List.NodupKeys, List.keys, List.map_map]
    exact map_ids_shares s srt ▸ nodup_order
  · rw [List.mem_map]
    constructor
    · rintro ⟨t, ht, heq⟩
      cases heq
      refine ⟨lookup_rebalance_share hover ht, ?_⟩
      rw [config_allocate]
      exact (share_task ht).2
    · rintro ⟨hstate, henabled⟩
      have hid : id ∈ s.computeSchedulingOrder srt := by
        by_contra hnot
        rw [lookup_rebalance_other hover hnot] at hstate
        exact hnot (mem_order.mpr ⟨state, hstate, henabled⟩)
      obtain ⟨old, hold, holdEnabled⟩ := mem_order.mp hid
      obtain ⟨b, ht⟩ := exists_share srt hold holdEnabled
      refine ⟨_, ht, ?_⟩
      rw [Option.mem_def, lookup_rebalance_share hover ht] at hstate
      cases hstate
      rfl

/-! ### Sums that fit -/

/-- The 64-bit arithmetic of a rebalance is exact: what each active task asks for fits, and so do
the sums of this over the active tasks up to any channel, which is how the total is summed up, and
what is left of the budget after each turn that covers its task. -/
structure Fits (s : AnalysisScheduler) (srt : Sorter PairLess) : Prop where
  demand : ∀ e ∈ s.active, e.2.Fits
  total : ∀ id, IsInt64 ((s.active.filter (·.1 ≤ id)).map (·.2.demand)).sum
  left : ∀ t ∈ s.shares srt, t.2.2.needed ≤ t.1 → IsInt64 (t.1 - t.2.2.needed)

theorem Fits.share (h : s.Fits srt) {t : ℤ × Σ _ : ℤ, TaskState} (ht : t ∈ s.shares srt) :
    t.2.2.Fits :=
  h.demand t.2 (mem_active.mpr (share_task ht))

/-- The last of the sums is the total. -/
theorem Fits.estimatedTotal_eq (h : s.Fits srt) :
    s.estimatedTotal = (s.active.map (·.2.demand)).sum := by
  have hneeded : s.active.map (·.2.needed) = s.active.map (·.2.demand) :=
    List.map_congr_left fun e he => (h.demand e he).needed_eq
  obtain ⟨id, hid⟩ := (s.active.map (·.1)).toFinset.exists_le
  have hall : s.active.filter (·.1 ≤ id) = s.active := by
    refine List.filter_eq_self.mpr fun e he => decide_eq_true ?_
    exact hid e.1 (List.mem_toFinset.mpr (List.mem_map_of_mem he))
  have htotal := h.total id
  rw [hall] at htotal
  rw [estimatedTotal, hneeded, toInt64_of_isInt64 htotal]

/-- **Where no time is negative**, everything fits if the total does. -/
theorem Fits.of_nonneg (hbudget : 0 ≤ s.gpuBudgetUs) (hbudget' : IsInt64 s.gpuBudgetUs)
    (hdemand : ∀ e ∈ s.active, 0 ≤ e.2.demand)
    (htotal : IsInt64 (s.active.map (·.2.demand)).sum) : s.Fits srt := by
  have hnonneg : ∀ t ∈ s.active.map (·.2.demand), 0 ≤ t := by
    simpa only [List.forall_mem_map] using hdemand
  have hfits : ∀ e ∈ s.active, e.2.Fits := by
    intro e he
    have hle := List.single_le_sum hnonneg _ (List.mem_map_of_mem he)
    exact ⟨le_trans (by norm_num) (hdemand e he), lt_of_le_of_lt hle htotal.2⟩
  refine ⟨hfits, fun id => ?_, fun t ht hcovered => ?_⟩
  · have hsub : ((s.active.filter (·.1 ≤ id)).map (·.2.demand)).Sublist
        (s.active.map (·.2.demand)) := List.filter_sublist.map _
    refine ⟨le_trans (by norm_num) (List.sum_nonneg fun t ht => hnonneg t (hsub.subset ht)), ?_⟩
    exact lt_of_le_of_lt (hsub.sum_le_sum hnonneg) htotal.2
  · have hneeded : ∀ t ∈ s.shares srt, 0 ≤ t.2.2.needed := fun t ht => by
      have hactive := mem_active.mpr (share_task ht)
      rw [(hfits t.2 hactive).needed_eq]
      exact hdemand t.2 hactive
    have hwithin : ∀ t ∈ s.shares srt, t.1 ≤ s.gpuBudgetUs :=
      forall_turns (· ≤ s.gpuBudgetUs) (fun t ht hb =>
        (left_allocate_le hbudget' hb (hneeded t ht)).trans (max_le hbudget hb)) le_rfl
    exact isInt64_left hbudget' (hwithin t ht) (hneeded t ht) hcovered

/-! ### The budget -/

/-- The active tasks spend no more than the budget and the frames that it does not cover. -/
def Spends (s : AnalysisScheduler) (srt : Sorter PairLess) : Prop :=
  ((s.rebalanceBudget srt).active.map (·.2.used)).sum ≤ s.gpuBudgetUs +
    ((s.rebalanceBudget srt).active.map fun e =>
      if s.floored srt e.1 then e.2.averageTime else 0).sum

/-- The task is within its target, and throttled exactly where the budget did not cover its need or
its rate is below the target. -/
def Capped (s : AnalysisScheduler) (srt : Sorter PairLess) (id : ℤ) (state : TaskState) : Prop :=
  state.effectiveFps ≤ state.config.targetFps ∧
    (state.isThrottled = true ↔
      state.effectiveFps < state.config.targetFps ∨ s.short srt id = true)

/-- Behind a task that is throttled, all with a need are. -/
def NoInversion (s : AnalysisScheduler) (srt : Sorter PairLess) : Prop :=
  (s.computeSchedulingOrder srt).Pairwise fun i j =>
    ∀ a b, (s.rebalanceBudget srt).tasks.lookup i = some a →
      (s.rebalanceBudget srt).tasks.lookup j = some b →
        a.isThrottled = true → 0 < b.needed → b.isThrottled = true

/-- What was asked of every task. -/
structure KeptForAll (s : AnalysisScheduler) (srt : Sorter PairLess) : Prop where
  spends : s.Spends srt
  capped : ∀ id state, (s.rebalanceBudget srt).tasks.lookup id = some state →
    s.Capped srt id state
  noInversion : s.NoInversion srt

/-- **What holds of the active tasks**, and what is done with the others. -/
structure BudgetKept (s : AnalysisScheduler) (srt : Sorter PairLess) : Prop where
  spends : s.Spends srt
  capped : ∀ id state, (s.rebalanceBudget srt).tasks.lookup id = some state →
    state.config.enabled = true ∨ s.estimatedTotal ≤ s.gpuBudgetUs → s.Capped srt id state
  noInversion : (∀ e ∈ s.active, 0 ≤ e.2.averageTime) → s.NoInversion srt
  disabled : s.gpuBudgetUs < s.estimatedTotal → ∀ id state,
    s.tasks.lookup id = some state → state.config.enabled = false →
      (s.rebalanceBudget srt).tasks.lookup id = some state

section
variable (hfits : s.Fits srt) (hbudget : 0 ≤ s.gpuBudgetUs)
  (htarget : ∀ e ∈ s.active, 0 ≤ e.2.config.targetFps)
include hfits hbudget htarget

theorem share_nonneg {t : ℤ × Σ _ : ℤ, TaskState} (ht : t ∈ s.shares srt) :
    0 ≤ t.1 ∧ 0 ≤ t.2.2.config.targetFps := by
  have hnonneg : ∀ t ∈ s.shares srt, 0 ≤ t.1 :=
    forall_turns (0 ≤ ·) (fun _ ht' => left_allocate_nonneg (hfits.left _ ht')) hbudget
  exact ⟨hnonneg t ht, htarget t.2 (mem_active.mpr (share_task ht))⟩

omit hfits hbudget htarget in
/-- The turn of a task that is active afterwards. -/
theorem share_of_lookup (hover : s.gpuBudgetUs < s.estimatedTotal) {state : TaskState}
    (hstate : (s.rebalanceBudget srt).tasks.lookup id = some state)
    (henabled : state.config.enabled = true) :
    ∃ t ∈ s.shares srt, t.2.1 = id ∧ (allocate t.1 t.2.2).2 = state := by
  have hmem : ⟨id, state⟩ ∈ (s.rebalanceBudget srt).active := mem_active.mpr ⟨hstate, henabled⟩
  obtain ⟨t, ht, heq⟩ := List.mem_map.mp ((active_rebalance srt hover).mem_iff.mp hmem)
  cases heq
  exact ⟨t, ht, rfl, rfl⟩

omit hfits hbudget htarget in
theorem active_rebalance_under (hunder : s.estimatedTotal ≤ s.gpuBudgetUs) :
    (s.rebalanceBudget srt).active.Perm (s.active.map fun e => ⟨e.1, e.2.unthrottled⟩) := by
  refine entries_perm (m := (s.rebalanceBudget srt).tasks)
    (p := fun state => state.config.enabled) ?_ fun id state => ?_
  · rw [List.NodupKeys, List.keys, List.map_map]
    exact (List.filter_sublist.map Sigma.fst).nodup s.tasks.nodupKeys
  · rw [List.mem_map, lookup_rebalance_under hunder, Option.mem_map]
    constructor
    · rintro ⟨e, he, heq⟩
      cases heq
      obtain ⟨hstate, henabled⟩ := mem_active.mp he
      exact ⟨⟨e.2, hstate, rfl⟩, by rwa [TaskState.config_unthrottled]⟩
    · rintro ⟨⟨old, hold, rfl⟩, henabled⟩
      rw [TaskState.config_unthrottled] at henabled
      exact ⟨⟨id, old⟩, mem_active.mpr ⟨hold, henabled⟩, rfl⟩

omit hbudget htarget in
theorem spends_under (hunder : s.estimatedTotal ≤ s.gpuBudgetUs) : s.Spends srt := by
  have hused : ((s.rebalanceBudget srt).active.map (·.2.used)).sum = s.estimatedTotal := by
    rw [((active_rebalance_under hunder).map _).sum_eq, List.map_map, hfits.estimatedTotal_eq]
    refine congrArg List.sum (List.map_congr_left fun e _ => ?_)
    simp [TaskState.used, TaskState.demand]
  have hnone : ∀ id, s.floored srt id = false := fun id =>
    decide_eq_false fun h => not_lt.mpr hunder h.1
  rw [Spends, hused]
  simpa [hnone] using hunder

theorem spends_over (hover : s.gpuBudgetUs < s.estimatedTotal) : s.Spends srt := by
  have hperm := active_rebalance srt hover
  rw [Spends, (hperm.map _).sum_eq, (hperm.map _).sum_eq, List.map_map, List.map_map]
  have hspent := sum_turns_le (fun t => (allocate t.1 t.2.2).2.used)
    (fun t => if s.floored srt t.2.1 then (allocate t.1 t.2.2).2.averageTime else 0)
    fun t (ht : t ∈ s.shares srt) => by
      obtain ⟨hb, hfps⟩ := share_nonneg hfits hbudget htarget ht
      have hfloored : s.floored srt t.2.1 = t.2.2.floored t.1 := by
        simp only [floored, hover, true_and]
        exact (Bool.decide_coe _).trans (any_share ht fun b state => state.floored b)
      rw [hfloored, averageTime_allocate]
      exact used_allocate_le (hfits.share ht) (hfits.left t ht) hb hfps
  have hleft : 0 ≤ leftOver serve s.gpuBudgetUs (s.scheduled srt) :=
    leftOver_of_keeps (0 ≤ ·) (fun t ht => left_allocate_nonneg (hfits.left t ht)) hbudget
  exact hspent.trans (Int.add_le_add_right (Int.sub_le_self _ hleft) _)

theorem capped_over (hover : s.gpuBudgetUs < s.estimatedTotal) {state : TaskState}
    (hstate : (s.rebalanceBudget srt).tasks.lookup id = some state)
    (henabled : state.config.enabled = true) : s.Capped srt id state := by
  obtain ⟨t, ht, rfl, rfl⟩ := share_of_lookup hover hstate henabled
  obtain ⟨hb, hfps⟩ := share_nonneg hfits hbudget htarget ht
  have hshort : s.short srt t.2.1 = true ↔ t.1 < t.2.2.needed := by
    simp only [short, hover, true_and]
    rw [Bool.decide_coe]
    have hany := any_share ht fun b state => decide (b < state.needed)
    simp only [decide_eq_true_eq] at hany
    rw [hany, decide_eq_true_eq]
  rw [Capped, isThrottled_allocate, hshort, config_allocate]
  refine ⟨effectiveFps_allocate_le (hfits.share ht) hb hfps,
    or_iff_right_of_imp (fun hless => ?_) |>.symm⟩
  by_contra hcovered
  rcases allocate_cases t.1 t.2.2 with ⟨-, h⟩ | ⟨hnot, -⟩
  · rw [h, TaskState.effectiveFps_unthrottled] at hless
    exact lt_irrefl _ hless
  · exact hcovered hnot

omit hfits hbudget htarget in
theorem capped_under (hunder : s.estimatedTotal ≤ s.gpuBudgetUs) {state : TaskState}
    (hstate : (s.rebalanceBudget srt).tasks.lookup id = some state) : s.Capped srt id state := by
  rw [lookup_rebalance_under hunder, Option.map_eq_some_iff] at hstate
  obtain ⟨old, -, rfl⟩ := hstate
  have hshort : s.short srt id = false := decide_eq_false fun h => not_lt.mpr hunder h.1
  simp [Capped, hshort]

omit hbudget in
theorem noInversion (haverage : ∀ e ∈ s.active, 0 ≤ e.2.averageTime) : s.NoInversion srt := by
  by_cases hover : s.gpuBudgetUs < s.estimatedTotal
  · have hneeded : ∀ t ∈ s.shares srt, 0 ≤ t.2.2.averageTime ∧ 0 ≤ t.2.2.needed := fun t ht => by
      have hactive := mem_active.mpr (share_task ht)
      rw [(hfits.share ht).needed_eq]
      exact ⟨haverage t.2 hactive, mul_nonneg (haverage t.2 hactive) (htarget t.2 hactive)⟩
    have hbegin : ∀ t ∈ s.shares srt, t.1 < t.2.2.needed → (serve t.1 t.2).1 ≤ 0 := fun t ht =>
      left_allocate_nonpos (hfits.share ht) (hneeded t ht).1
    have hkeep : ∀ t ∈ s.shares srt, t.1 ≤ 0 → (serve t.1 t.2).1 ≤ 0 := by
      intro t ht hb
      have hzero : IsInt64 0 := by decide
      have hle := left_allocate_le hzero hb (hneeded t ht).2
      rwa [max_eq_left hb] at hle
    have hturns : (s.shares srt).Pairwise fun t t' => t.1 < t.2.2.needed → t'.1 ≤ 0 :=
      pairwise_turns (fun b e => b < e.2.needed) (· ≤ 0) hbegin hkeep
    rw [NoInversion, ← map_ids_shares, List.pairwise_map]
    refine hturns.imp_of_mem fun {t t'} ht ht' hlater a b ha hb hthrottled hneed => ?_
    rw [lookup_rebalance_share hover ht, Option.some.injEq] at ha
    rw [lookup_rebalance_share hover ht', Option.some.injEq] at hb
    subst ha hb
    rw [isThrottled_allocate] at hthrottled ⊢
    rw [TaskState.needed, TaskState.demand, averageTime_allocate, config_allocate] at hneed
    exact lt_of_le_of_lt (hlater hthrottled) hneed
  · refine List.pairwise_of_forall fun i j a b ha _ hthrottled => ?_
    rw [lookup_rebalance_under (not_lt.mp hover), Option.map_eq_some_iff] at ha
    obtain ⟨old, -, rfl⟩ := ha
    simp at hthrottled

/-- **The budget is kept**, and no task is served before one that comes first. -/
theorem budgetKept : s.BudgetKept srt where
  spends := by
    by_cases hover : s.gpuBudgetUs < s.estimatedTotal
    · exact spends_over hfits hbudget htarget hover
    · exact spends_under hfits (not_lt.mp hover)
  capped id state hstate hcounts := by
    by_cases hover : s.gpuBudgetUs < s.estimatedTotal
    · exact capped_over hfits hbudget htarget hover hstate
        (hcounts.resolve_right (not_le.mpr hover))
    · exact capped_under (not_lt.mp hover) hstate
  noInversion haverage := noInversion hfits htarget haverage
  disabled hover id state hstate hdisabled := by
    rw [lookup_rebalance_other hover, hstate]
    intro hid
    obtain ⟨state', hstate', henabled⟩ := mem_order.mp hid
    rw [hstate] at hstate'
    cases hstate'
    rw [hdisabled] at henabled
    cases henabled

end

/-- A task whose target is lowered before it is disabled, beside one that needs all the time. -/
def lowered : AnalysisScheduler :=
  let s := (({} : AnalysisScheduler).addTask { channelId := 1, targetFps := 10 } 0).1
  let s := (s.updateTask 1 { channelId := 1, targetFps := 5 }).1
  let s := (s.setEnabled 1 false).1
  (s.addTask { channelId := 2, targetFps := 100 } 0).1

/-- A task that is said to give time back, between one that needs all the time and one that needs
some. -/
def givingBack : AnalysisScheduler :=
  let s := (({} : AnalysisScheduler).addTask { channelId := 1, targetFps := 20 } 0).1
  let s := (s.addTask { channelId := 2, targetFps := 1 } 0).1
  let s := (s.addTask { channelId := 3, targetFps := 1 } 0).1
  (s.reportInference 2 (-5)).reportInference 3 5

/-- A task of four frames a second, of which one is said to have taken 2^62 microseconds. -/
def overflowing : AnalysisScheduler :=
  (({} : AnalysisScheduler).addTask { channelId := 1, targetFps := 4 } 0).1.reportInference 1
    4611686018427387904

/-- **A disabled task is not capped** over budget, a negative time makes an inversion, and of a
product that overflows any number of frames is covered. -/
theorem budgetKept_refuted :
    (0 ≤ lowered.gpuBudgetUs ∧ (∀ e ∈ lowered.tasks.entries, 0 ≤ e.2.config.targetFps) ∧
      ¬ lowered.KeptForAll (.byKeyAsc toLex)) ∧
    (0 ≤ givingBack.gpuBudgetUs ∧ (∀ e ∈ givingBack.tasks.entries, 0 ≤ e.2.config.targetFps) ∧
      ¬ givingBack.NoInversion (.byKeyAsc toLex)) ∧
    (0 ≤ overflowing.gpuBudgetUs ∧ (∀ e ∈ overflowing.tasks.entries, 0 ≤ e.2.config.targetFps) ∧
      ¬ overflowing.Spends (.byKeyAsc toLex)) := by
  refine ⟨⟨by decide, by decide, ?_⟩, ⟨by decide, by decide, ?_⟩, by decide, by decide, ?_⟩
  · intro hkept
    have hcapped := hkept.capped 1 _ rfl
    exact absurd hcapped.1 (by decide)
  · intro hnone
    have horder : givingBack.computeSchedulingOrder (.byKeyAsc toLex) = [1, 2, 3] := by decide
    rw [NoInversion, horder] at hnone
    have hlast := (List.pairwise_cons.mp hnone).1 3 (by simp) _ _ rfl rfl rfl (by decide)
    exact absurd hlast (by decide)
  · unfold Spends
    decide

/-- The theorem, of a channel that gets half of what it asks for. -/
theorem budgetKept_half :
    ((({} : AnalysisScheduler).addTask { channelId := 1, targetFps := 20 } 0).1).BudgetKept
      (.byKeyAsc toLex) :=
  budgetKept (.of_nonneg (by decide) (by decide) (by decide) (by decide)) (by decide) (by decide)

end AnalysisScheduler

end LoongNvr.AiEngine
