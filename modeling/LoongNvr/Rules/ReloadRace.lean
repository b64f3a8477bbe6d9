import LoongNvr.Rules.RuleEngine
import Mathlib.Data.List.Induction

/-!
# Rules — ReloadRace

Several calls that change rules at the same time.  Each writes the store, reads the enabled rules
of its channel, and then replaces the channel's cache under the mutex by what it read; nothing
holds the other calls off between the last two (`LoadRules` does both under the mutex).

* `run_alone`: a call that runs alone does what `apply` says.
* `reload_source`: the cache of a channel is what the last call to replace it had read.
* `cacheCurrent_iff`: so the cache is right at the end exactly when that call read the channel's
  rules as they are at the end.
-/

namespace LoongNvr.Rules.RuleEngine
open LoongNvr.Core Support

/-- Where a call stands. -/
inductive Progress
  /-- not begun -/
  | start
  /-- a deletion that has looked up the rule's channel -/
  | found (ruleId channelId : ℤ)
  /-- the store is written -/
  | written (channelId : ℤ)
  /-- `BuildEvaluators` has returned, the mutex is not taken yet -/
  | built (channelId : ℤ) (entries : List EvaluatorEntry)
  | done

/-- The next step of a call. -/
def stepCall (engine : RuleEngine) : Progress → Change → RuleEngine × Progress
  | .start, .create rule now =>
      let (store, id) := engine.store.createRule rule now
      ({ engine with store := store }, if id > 0 then .written rule.channelId else .done)
  | .start, .update rule now =>
      ({ engine with store := engine.store.updateRule rule now }, .written rule.channelId)
  | .start, .delete ruleId =>
      match engine.store.getRule ruleId with
      | none => (engine, .done)
      | some existing => (engine, .found ruleId existing.channelId)
  | .found ruleId channelId, _ =>
      ({ engine with store := engine.store.deleteRule ruleId }, .written channelId)
  | .written channelId, _ => (engine, .built channelId (buildEvaluators engine.store channelId))
  | .built channelId entries, _ =>
      ({ engine with evaluators := Function.update engine.evaluators channelId (some entries) },
        .done)
  | .done, _ => (engine, .done)

/-- The engine and where each call stands. -/
structure World (ι : Type*) where
  engine : RuleEngine
  progress : ι → Progress

variable {ι : Type*} [DecidableEq ι] (calls : ι → Change)

/-- Call `i` takes its next step. -/
def stepWorld (w : World ι) (i : ι) : World ι :=
  let (engine, next) := stepCall w.engine (w.progress i) (calls i)
  { engine := engine, progress := Function.update w.progress i next }

/-- The world after the calls took their steps in this order. -/
def runWorld (engine : RuleEngine) (sched : List ι) : World ι :=
  sched.foldl (stepWorld calls) { engine := engine, progress := fun _ => .start }

/-- The rules cached for the channel are the enabled ones of the store. -/
def CacheCurrent (engine : RuleEngine) (channelId : ℤ) : Prop :=
  engine.cachedRules channelId = storedRules engine.store channelId

/-- The next step of call `i` does not replace the cache of the channel. -/
def KeepsCache (channelId : ℤ) (w : World ι) (i : ι) : Prop :=
  ∀ entries, w.progress i ≠ .built channelId entries

/-- A part of the schedule in which no call replaces the cache of the channel. -/
def NoSwap (channelId : ℤ) (w : World ι) (sched : List ι) : Prop :=
  EveryStep (stepWorld calls) (KeepsCache channelId) w sched

/-- The schedule up to a read of the channel's rules, the call that reads, and the rest of the
schedule, in which this call is the last to replace the channel's cache. -/
structure LastReload (engine : RuleEngine) (sched : List ι) (channelId : ℤ) (pre : List ι) (i : ι) :
    Prop where
  reads : (runWorld calls engine pre).progress i = .written channelId
  swaps : ∃ mid post, sched = pre ++ i :: (mid ++ i :: post) ∧ i ∉ mid ∧
    NoSwap calls channelId (runWorld calls engine (pre ++ i :: (mid ++ [i]))) post

/-- The last call to replace the cache of the channel read the rules it has at the end; where none
replaces it, the cache was right for the end to begin with. -/
def LastReloadFresh (engine : RuleEngine) (sched : List ι) (channelId : ℤ) : Prop :=
  (NoSwap calls channelId { engine := engine, progress := fun _ => .start } sched ∧
    engine.cachedRules channelId =
      storedRules (runWorld calls engine sched).engine.store channelId) ∨
  ∃ pre i, LastReload calls engine sched channelId pre i ∧
    storedRules (runWorld calls engine pre).engine.store channelId =
      storedRules (runWorld calls engine sched).engine.store channelId

/-! ### One call -/

/-- **Alone**, a call does in its steps what it does in one. -/
theorem run_alone (engine : RuleEngine) (i : ι) :
    (runWorld calls engine [i, i, i, i]).engine = engine.apply (calls i) ∧
      (runWorld calls engine [i, i, i, i]).progress i = .done := by
  simp only [runWorld, List.foldl_cons, List.foldl_nil, stepWorld, Function.update_self]
  cases calls i with
  | create rule now =>
      have hpos : engine.store.rules.seq + 1 > 0 := by
        have := engine.store.rules.seq_nonneg
        omega
      simp [stepCall, apply, createRule, RuleStore.createRule, hpos, reloadChannel]
  | update rule now => exact ⟨rfl, rfl⟩
  | delete ruleId =>
      cases hget : engine.store.getRule ruleId with
      | none => simp [stepCall, apply, deleteRule, hget]
      | some existing => simp [stepCall, apply, deleteRule, hget, reloadChannel]

/-- Only the read of a channel's rules leaves a call holding entries for it. -/
theorem stepCall_built {engine : RuleEngine} {p : Progress} {change : Change} {channelId : ℤ}
    {entries : List EvaluatorEntry} (h : (stepCall engine p change).2 = .built channelId entries) :
    p = .written channelId := by
  cases p with
  | start =>
      cases change with
      | create rule now =>
          dsimp only [stepCall] at h
          split at h <;> cases h
      | update rule now => cases h
      | delete ruleId =>
          dsimp only [stepCall] at h
          split at h <;> cases h
  | found ruleId other => cases h
  | written other =>
      injection h with hch
      rw [hch]
  | built other list => cases h
  | done => cases h

/-- A step that does not replace the channel's cache leaves it as it is. -/
theorem stepCall_entries {engine : RuleEngine} {p : Progress} {change : Change} {channelId : ℤ}
    (h : ∀ entries, p ≠ .built channelId entries) :
    (stepCall engine p change).1.entries channelId = engine.entries channelId := by
  cases p with
  | start =>
      cases change with
      | create rule now => rfl
      | update rule now => rfl
      | delete ruleId =>
          dsimp only [stepCall]
          split <;> rfl
  | found ruleId other => rfl
  | written other => rfl
  | built other list =>
      have hne : channelId ≠ other := fun e => h list (by rw [e])
      simp [stepCall, entries, Function.update_of_ne hne]
  | done => rfl

/-! ### Whole schedules -/

theorem runWorld_append (engine : RuleEngine) (pre post : List ι) :
    runWorld calls engine (pre ++ post) =
      post.foldl (stepWorld calls) (runWorld calls engine pre) :=
  List.foldl_append

theorem runWorld_concat (engine : RuleEngine) (pre : List ι) (i : ι) :
    runWorld calls engine (pre ++ [i]) = stepWorld calls (runWorld calls engine pre) i := by
  rw [runWorld_append]
  rfl

variable {calls}

/-- The read of the enabled rules. -/
theorem progress_of_written {w : World ι} {i : ι} {channelId : ℤ}
    (h : w.progress i = .written channelId) :
    (stepWorld calls w i).progress i =
      .built channelId (buildEvaluators w.engine.store channelId) := by
  simp [stepWorld, h, stepCall]

/-- The replacement of the cache. -/
theorem entries_of_built {w : World ι} {i : ι} {channelId : ℤ} {list : List EvaluatorEntry}
    (h : w.progress i = .built channelId list) :
    (stepWorld calls w i).engine.entries channelId = list := by
  simp [stepWorld, h, stepCall, entries]

/-- A call stands still while the others run. -/
theorem progress_of_notMem {w : World ι} {i : ι} {mid : List ι} (h : i ∉ mid) :
    (mid.foldl (stepWorld calls) w).progress i = w.progress i := by
  induction mid generalizing w with
  | nil => rfl
  | cons j mid ih =>
      rw [List.mem_cons, not_or] at h
      rw [List.foldl_cons, ih h.2]
      exact Function.update_of_ne h.1 _ _

theorem entries_of_noSwap {w : World ι} {channelId : ℤ} {post : List ι}
    (h : NoSwap calls channelId w post) :
    (post.foldl (stepWorld calls) w).engine.entries channelId = w.engine.entries channelId := by
  induction post generalizing w with
  | nil => rfl
  | cons i post ih => exact (ih h.2).trans (stepCall_entries h.1)

/-- **What a reload leaves**: the rules the last call to replace the cache had read. -/
theorem LastReload.cached {engine : RuleEngine} {sched pre : List ι} {channelId : ℤ} {i : ι}
    (h : LastReload calls engine sched channelId pre i) :
    (runWorld calls engine sched).engine.cachedRules channelId =
      storedRules (runWorld calls engine pre).engine.store channelId := by
  obtain ⟨hread, mid, post, rfl, hmid, hpost⟩ := h
  set w := runWorld calls engine pre with hw
  set read := buildEvaluators w.engine.store channelId with hreadDef
  have hheld : (mid.foldl (stepWorld calls) (stepWorld calls w i)).progress i =
      .built channelId read := (progress_of_notMem hmid).trans (progress_of_written hread)
  have hsplit : pre ++ i :: (mid ++ [i]) = (pre ++ [i] ++ mid) ++ [i] := by simp
  have hswapped : (runWorld calls engine (pre ++ i :: (mid ++ [i]))).engine.entries channelId =
      read := by
    rw [hsplit, runWorld_concat, runWorld_append, runWorld_concat]
    exact entries_of_built hheld
  have hall : pre ++ i :: (mid ++ i :: post) = (pre ++ i :: (mid ++ [i])) ++ post := by simp
  rw [cachedRules, hall, runWorld_append, entries_of_noSwap hpost, hswapped, hreadDef,
    map_buildEvaluators]

/-- A call that holds entries for a channel has read its rules and taken no step since. -/
theorem exists_read {engine : RuleEngine} {sched : List ι} {i : ι} {channelId : ℤ}
    {entries : List EvaluatorEntry}
    (h : (runWorld calls engine sched).progress i = .built channelId entries) :
    ∃ pre mid, sched = pre ++ i :: mid ∧ i ∉ mid ∧
      (runWorld calls engine pre).progress i = .written channelId := by
  -- from the end of the schedule: the last step of call `i` is the read
  induction sched using List.reverseRecOn with
  | nil => cases h
  | append_singleton sched j ih =>
      rw [runWorld_concat] at h
      by_cases e : j = i
      · subst e
        have hnext : (stepCall (runWorld calls engine sched).engine
            ((runWorld calls engine sched).progress j) (calls j)).2 = .built channelId entries := by
          simpa [stepWorld] using h
        exact ⟨sched, [], rfl, List.not_mem_nil, stepCall_built hnext⟩
      · have hsame : (runWorld calls engine sched).progress i = .built channelId entries := by
          simpa [stepWorld, Function.update_of_ne (Ne.symm e)] using h
        obtain ⟨pre, mid, rfl, hmid, hread⟩ := ih hsame
        exact ⟨pre, mid ++ [j], by simp, by simp [hmid, Ne.symm e], hread⟩

/-- **The cache has one source**: either no call of the schedule replaces it, or one is the last
to. -/
theorem reload_source (engine : RuleEngine) (sched : List ι) (channelId : ℤ) :
    NoSwap calls channelId { engine := engine, progress := fun _ => .start } sched ∨
      ∃ pre i, LastReload calls engine sched channelId pre i := by
  induction sched using List.reverseRecOn with
  | nil => exact .inl trivial
  | append_singleton sched j ih =>
      by_cases hswap :
          ∃ entries, (runWorld calls engine sched).progress j = .built channelId entries
      · -- the step replaces the cache, by what its call read
        obtain ⟨entries, hbuilt⟩ := hswap
        obtain ⟨pre, mid, rfl, hmid, hread⟩ := exists_read hbuilt
        exact .inr ⟨pre, j, hread, mid, [], by simp, hmid, trivial⟩
      · have hkeep : KeepsCache channelId (runWorld calls engine sched) j :=
          fun entries h => hswap ⟨entries, h⟩
        rcases ih with hno | ⟨pre, i, hread, mid, post, rfl, hmid, hpost⟩
        · exact .inl (everyStep_concat.mpr ⟨hno, hkeep⟩)
        · refine .inr ⟨pre, i, hread, mid, post ++ [j], by simp, hmid,
            everyStep_concat.mpr ⟨hpost, ?_⟩⟩
          have hall : pre ++ i :: (mid ++ i :: post) = (pre ++ i :: (mid ++ [i])) ++ post := by simp
          rwa [hall, runWorld_append] at hkeep

variable (calls)

/-- **The cache of a channel is right after an interleaving** of any calls exactly when the last
call to replace it had read the rules the channel has at the end. -/
theorem cacheCurrent_iff (engine : RuleEngine) (sched : List ι) (channelId : ℤ) :
    CacheCurrent (runWorld calls engine sched).engine channelId ↔
      LastReloadFresh calls engine sched channelId := by
  constructor
  · intro h
    rcases reload_source engine sched channelId with hno | ⟨pre, i, hlast⟩
    · refine .inl ⟨hno, ?_⟩
      rw [← h]
      exact congrArg (List.map fun e => (e.ruleId, e.rule)) (entries_of_noSwap hno).symm
    · exact .inr ⟨pre, i, hlast, hlast.cached.symm.trans h⟩
  · rintro (⟨hno, hsame⟩ | ⟨pre, i, hlast, hsame⟩)
    · rw [CacheCurrent, ← hsame]
      exact congrArg (List.map fun e => (e.ruleId, e.rule)) (entries_of_noSwap hno)
    · exact hlast.cached.trans hsame

/-- Two rules created on channel 0 at the same time. -/
def twoCreations : Bool → Change
  | false => .create { channelId := 0 } 0
  | true => .create { channelId := 0 } 0

/-- The first call writes and reads, the second writes, reads and replaces the cache, and then
the first replaces it by what it read. -/
def staleOrder : List Bool := [false, false, true, true, true, false]

/-- Both calls have returned and the second rule is not cached. -/
theorem not_cacheCurrent :
    (∀ i, (runWorld twoCreations (loadRules {}) staleOrder).progress i = .done) ∧
      ¬ CacheCurrent (runWorld twoCreations (loadRules {}) staleOrder).engine 0 := by
  refine ⟨fun i => by cases i <;> rfl, fun h => ?_⟩
  have hlength : ((runWorld twoCreations (loadRules {}) staleOrder).engine.cachedRules 0).length =
      (storedRules (runWorld twoCreations (loadRules {}) staleOrder).engine.store 0).length :=
    congrArg List.length h
  revert hlength
  decide +kernel

end LoongNvr.Rules.RuleEngine
