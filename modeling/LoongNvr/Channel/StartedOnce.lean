import LoongNvr.Channel.Orphans

/-!
# Channel — StartedOnce

Starts, stops and edits of a channel at the same time, and its pipelines.  A start looks at the
channel's state in one critical section, and initialises and starts the pipeline it found outside of
any: two starts can both find the channel not running.  For a channel, `StartAll` is one more start.

* `StartedOnce`: no pipeline that runs is initialised or started, and no two run.
* `startedOnce_of_alone`: so it is where a start finds the channel not running only while no
  pipeline of it runs and no other call is about to start one.
-/

namespace LoongNvr.Channel
open Support Program

variable {δ : Type*} {db : StoreCalls δ} {m : Manager δ} {n : ℕ} {c id : ℤ}

/-! ### Pipelines started once -/

/-- The action initialises or starts a pipeline of the channel. -/
@[simp] def Action.Launches (c : ℤ) : Action → Prop
  | .initializeStages id _ _ | .start id _ _ => id = c
  | _ => False

/-- The pipeline that the action initialises or starts does not run. -/
def Action.FindsIdle (c : ℤ) (m : Manager δ) : Action → Prop
  | .initializeStages id k _ | .start id k _ =>
      id = c → ∀ p, m.pipelines c k = some p → p.running = false
  | _ => True

/-- So it is of what the call does next. -/
def NextFindsIdle (c : ℤ) (w : Calls δ n) (i : Fin n) : Prop :=
  ∀ a next, w.rest i = .step a next → a.FindsIdle c w.state

/-- At most one pipeline of the channel runs. -/
def OneRuns (c : ℤ) (m : Manager δ) : Prop :=
  ∀ k k' p p', m.pipelines c k = some p → m.pipelines c k' = some p' → p.running → p'.running →
    k = k'

/-- No pipeline that runs is initialised or started, and no two run. -/
structure StartedOnce (db : StoreCalls δ) (c : ℤ) (w : Calls δ n) (sched : List (Fin n)) :
    Prop where
  idle : EveryStep (stepCalls db) (NextFindsIdle c) w sched
  one : Along (stepCalls db) (fun w => OneRuns c w.state) w sched

/-- The call is about to initialise or start a pipeline of the channel. -/
def Starting {ρ : Type*} (c : ℤ) : Call δ ρ → Prop
  | .done _ => False
  | .step a _ => a.Launches c

/-- If the call is a start at its test, and finds the channel there and not running, then no
pipeline of the channel runs and no other call is about to initialise or start one. -/
def TestsAlone (c : ℤ) (w : Calls δ n) (i : Fin n) : Prop :=
  ∀ next, w.rest i = .step (.startFind c) next →
    ∀ e, w.state.channels.lookup c = some e → e.state ≠ .running →
      ¬ PipelineRuns w.state c ∧ ∀ j, j ≠ i → ¬ Starting c (w.rest j)

/-! ### The way to a start -/

/-- Only a test that the channel passes leads to an `Initialize`, and only that to a `Start`. -/
def Enters {ρ : Type*} (c : ℤ) (a : Action) (next : Manager δ → Call δ ρ) : Prop :=
  ∀ m, Starting c (next m) → (∃ k succeeds, a = .initializeStages c k succeeds) ∨
    a = .startFind c ∧ ∃ e, m.channels.lookup c = some e ∧ e.state ≠ .running

/-- A call that is not past a test yet. -/
def Untested {ρ : Type*} (c : ℤ) (p : Call δ ρ) : Prop :=
  ¬ Starting c p ∧ p.EveryNode (Enters c)

section Programs

variable {ρ ρ' : Type*} {p : Call δ ρ} {f : ρ → Call δ ρ'}

theorem not_starting_of_all (h : p.All (¬ Action.Launches c ·)) : ¬ Starting c p := by
  cases p with
  | done r => exact id
  | step a next => exact h.1

theorem untested_of_all (h : p.All (¬ Action.Launches c ·)) : Untested c p := by
  refine ⟨not_starting_of_all h, ?_⟩
  induction p with
  | done r => trivial
  | step a next ih =>
      exact ⟨fun m hm => absurd hm (not_starting_of_all (h.2 m)), fun m => ih m (h.2 m)⟩

/-- A call that does something else before. -/
theorem Untested.after (hp : p.All (¬ Action.Launches c ·)) (hf : ∀ r, Untested c (f r)) :
    Untested c (p.bind f) := by
  induction p with
  | done r => exact hf r
  | step a next ih =>
      have hnext := fun m => ih m (hp.2 m)
      exact ⟨hp.1, fun m hm => absurd hm (hnext m).1, fun m => (hnext m).2⟩

theorem starting_bind (hf : ∀ r, ¬ Starting c (f r)) (h : Starting c (p.bind f)) :
    Starting c p := by
  cases p with
  | done r => exact absurd h (hf r)
  | step a next => exact h

/-- A call that does something else afterwards. -/
theorem everyNode_before (hp : p.EveryNode (Enters c))
    (hf : ∀ r, (f r).All (¬ Action.Launches c ·)) : (p.bind f).EveryNode (Enters c) := by
  induction p with
  | done r => exact (untested_of_all (hf r)).2
  | step a next ih =>
      exact ⟨fun m hm => hp.1 m (starting_bind (fun r => not_starting_of_all (hf r)) hm),
        fun m => ih m (hp.2 m)⟩

theorem Untested.before (hp : Untested c p) (hf : ∀ r, (f r).All (¬ Action.Launches c ·)) :
    Untested c (p.bind f) :=
  ⟨fun h => hp.1 (starting_bind (fun r => not_starting_of_all (hf r)) h),
    everyNode_before hp.2 hf⟩

theorem Untested.withLocals (hp : Untested c p) : Untested c (withLocals p) :=
  hp.before fun _ => ⟨not_false, fun _ => trivial⟩

end Programs

theorem Action.Announces.launches {a : Action} (h : a.Announces id) : ¬ a.Launches c := by
  cases a <;> simp_all

theorem announce_launches (config : ConfigOf id) (info : StreamInfo) :
    (announce id config info : Call δ Bool).All (¬ Action.Launches c ·) :=
  (announce_announces config info).mono fun _ h => h.launches

theorem error_launches (id : ℤ) (message : String) :
    ((acts [.setState id .error (some message)]).bind fun _ => done false :
      Call δ Bool).All (¬ Action.Launches c ·) :=
  All.bind (All.acts (by simp)) fun _ => trivial

/-- The part of a start after its test. -/
theorem launch_enters (id : ℤ) (e : ChannelEntry id) (o : StartOutcome) :
    ((act (.initializeStages id e.pipeline o.initializes) fun _ => o.initializes).bind
      fun initialized =>
        if initialized then
          (act (.start id e.pipeline o.starts) fun m : Manager δ =>
            (m.pipelines id e.pipeline).any (·.canStart) && o.starts).bind fun started =>
            if started then announce id e.config o.info
            else
              (acts [.setState id .error (some "pipeline start failed")]).bind fun _ => done false
        else
          (acts [.setState id .error (some "pipeline initialization failed")]).bind fun _ =>
            done false : Call δ Bool).EveryNode (Enters c) := by
  refine ⟨fun m hm => ?_, fun m => ?_⟩
  · dsimp only [done_bind] at hm
    split at hm
    · obtain rfl : id = c := hm
      exact .inl ⟨_, _, rfl⟩
    · exact absurd hm (not_starting_of_all (error_launches id _))
  · dsimp only [done_bind]
    split
    · refine ⟨fun m hm => ?_, fun m => ?_⟩
      · dsimp only [done_bind] at hm
        split at hm
        · exact absurd hm (not_starting_of_all (announce_launches e.config o.info))
        · exact absurd hm (not_starting_of_all (error_launches id _))
      · dsimp only [done_bind]
        split
        · exact (untested_of_all (announce_launches e.config o.info)).2
        · exact (untested_of_all (error_launches id _)).2
    · exact (untested_of_all (error_launches id _)).2

theorem startChannel_untested (id : ℤ) (o : StartOutcome) :
    Untested c (startChannel id o : Call δ Bool) := by
  refine Untested.withLocals ⟨not_false, fun m hm => ?_, fun m => ?_⟩
  · simp only [done_bind] at hm
    cases he : m.channels.lookup id with
    | none =>
        rw [he] at hm
        exact hm.elim
    | some e =>
        rw [he] at hm
        dsimp only at hm
        split at hm
        · exact hm.elim
        · next hstate =>
            obtain rfl : id = c := hm
            exact .inr ⟨rfl, e, he, hstate⟩
  · simp only [done_bind]
    cases m.channels.lookup id with
    | none => trivial
    | some e =>
        dsimp only
        split
        · trivial
        · exact launch_enters id e o

theorem Action.Stops.launches {a : Action} (h : a.Stops id) : ¬ a.Launches c := by
  cases a <;> simp_all

theorem deleteChannel_launches (id : ℤ) :
    (deleteChannel id : Call δ Bool).All (¬ Action.Launches c ·) := by
  refine withLocals_all (All.bind (All.act (by simp) _) fun entry => ?_) (by simp)
  cases entry with
  | none => trivial
  | some entry =>
      exact All.bind (All.when fun _ => All.acts (by simp)) fun _ =>
        All.bind ((unregister_stops id).mono fun _ h => h.launches) fun _ =>
          All.bind (All.acts (by simp)) fun _ => trivial

theorem rebuild_untested (config : ConfigOf id) (restart : Bool) (o : StartOutcome) :
    Untested c (rebuild id config restart o : Call δ Bool) := by
  refine Untested.after (All.bind (All.act (by simp) _) fun activeCount => ?_) fun built => ?_
  · split
    · trivial
    · exact All.act (by simp) _
  · cases built with
    | none => exact untested_of_all (All.bind (All.acts (by simp)) fun _ => trivial)
    | some k =>
        refine Untested.after (All.act (by simp) _) fun found => ?_
        split
        · refine Untested.after (All.acts (by simp)) fun _ => ?_
          split
          · exact startChannel_untested id o
          · exact untested_of_all trivial
        · exact untested_of_all trivial

theorem editChannel_untested (id : ℤ) (newConfig : ChannelConfig) (o : StartOutcome) :
    Untested c (editChannel id newConfig o : Call δ Bool) := by
  refine Untested.withLocals (Untested.after (All.act (by simp) _) fun entry => ?_)
  cases entry with
  | none => exact untested_of_all trivial
  | some entry =>
      have hhalt : (halt id entry.pipeline : Call δ Unit).All (¬ Action.Launches c ·) :=
        (halt_stops id entry.pipeline).mono fun _ h => h.launches
      refine Untested.after (All.when fun _ => hhalt) fun _ =>
        Untested.after (All.acts (by simp)) fun _ => rebuild_untested _ _ o

theorem Request.untested (r : Request) : Untested c (r.program : Call δ Bool) := by
  cases r with
  | start id o => exact startChannel_untested id o
  | stop id => exact untested_of_all ((stopChannel_stops id).mono fun _ h => h.launches)
  | edit id newConfig o => exact editChannel_untested id newConfig o
  | delete id => exact untested_of_all (deleteChannel_launches id)

/-! ### Pipelines that run -/

/-- A pipeline of the channel has its workers running. -/
def Runs (m : Manager δ) (c : ℤ) (k : ℕ) : Prop := ∃ p, m.pipelines c k = some p ∧ p.running = true

theorem runs_setPipeline {f : ChannelPipeline → ChannelPipeline} {k k' : ℕ}
    (h : Runs (m.setPipeline id k' ((m.pipelines id k').map f)) c k) :
    Runs m c k ∨ id = c ∧ k' = k ∧ ∃ p, m.pipelines c k = some p ∧ (f p).running = true := by
  obtain ⟨p, hp, hrun⟩ := h
  simp only [Manager.setPipeline] at hp
  by_cases hid : c = id
  · subst hid
    rw [Function.update_self] at hp
    by_cases hk : k = k'
    · subst hk
      rw [Function.update_self] at hp
      obtain ⟨q, hq, rfl⟩ := Option.map_eq_some_iff.mp hp
      exact .inr ⟨rfl, rfl, q, hq, hrun⟩
    · rw [Function.update_of_ne hk] at hp
      exact .inl ⟨p, hp, hrun⟩
  · rw [Function.update_of_ne hid] at hp
    exact .inl ⟨p, hp, hrun⟩

/-- **Only a `Start`** makes a pipeline run that did not. -/
theorem runs_exec {call : ℕ} {a : Action} {k : ℕ} (h : Runs (m.exec db call a) c k) :
    Runs m c k ∨ ∃ succeeds, a = .start c k succeeds := by
  have happlied : Runs (m.apply db call a) c k := by
    obtain ⟨p, hp, hrun⟩ := h
    refine ⟨p, ?_, hrun⟩
    simp only [Manager.exec, Manager.release] at hp
    split at hp
    · exact hp
    · cases hp
  cases a with
  | initializeStages id k' succeeds =>
      rcases runs_setPipeline happlied with hruns | ⟨-, -, p, hp, hrun⟩
      · exact .inl hruns
      · exact .inl ⟨p, hp, hrun⟩
  | start id k' succeeds =>
      rcases runs_setPipeline happlied with hruns | ⟨rfl, rfl, -⟩
      · exact .inl hruns
      · exact .inr ⟨succeeds, rfl⟩
  | drainAndStop id k' =>
      rcases runs_setPipeline happlied with hruns | ⟨-, -, p, -, hrun⟩
      · exact .inl hruns
      · rw [p.running_stop] at hrun
        cases hrun
  | build id config k' =>
      obtain ⟨p, hp, hrun⟩ := happlied
      refine .inl ⟨p, ?_, hrun⟩
      simp only [Manager.apply, Manager.build, Manager.hold, Manager.setPipeline] at hp
      by_cases hid : c = id
      · subst hid
        rw [Function.update_self] at hp
        by_cases hk : k = m.built
        · subst hk
          rw [Function.update_self] at hp
          cases hp
          cases hrun
        · rwa [Function.update_of_ne hk] at hp
      · rwa [Function.update_of_ne hid] at hp
  | _ =>
      refine .inl ?_
      revert happlied
      simp only [Manager.apply]
      (repeat' split) <;> exact id

/-! ### Runs -/

/-- At most one pipeline of the channel runs, none while a call is about to start one, and at most
one call is. -/
structure Single (c : ℤ) (w : Calls δ n) : Prop where
  nodes : ∀ i, (w.rest i).EveryNode (Enters c)
  one : OneRuns c w.state
  idle : ∀ i, Starting c (w.rest i) → ¬ PipelineRuns w.state c
  only : ∀ i j, Starting c (w.rest i) → Starting c (w.rest j) → i = j

theorem Single.nextFindsIdle {w : Calls δ n} (h : Single c w) (i : Fin n) :
    NextFindsIdle c w i := by
  intro a next hi
  have hidle : a.Launches c → ∀ k p, w.state.pipelines c k = some p → p.running = false := by
    intro ha k p hp
    have hnone := h.idle i (by rw [hi]; exact ha)
    exact Bool.eq_false_of_not_eq_true fun hrun => hnone ⟨k, p, hp, hrun⟩
  cases a with
  | initializeStages id k succeeds => exact fun hid p hp => hidle hid k p hp
  | start id k succeeds => exact fun hid p hp => hidle hid k p hp
  | _ => trivial

/-- No pipeline of the channel runs after an action that is no `Start`, if none did before. -/
theorem not_pipelineRuns_exec {call : ℕ} {a : Action} (h : ¬ PipelineRuns m c)
    (ha : ∀ k succeeds, a ≠ .start c k succeeds) : ¬ PipelineRuns (m.exec db call a) c := by
  rintro ⟨k, hruns⟩
  rcases runs_exec hruns with hruns | ⟨succeeds, e⟩
  · exact h ⟨k, hruns⟩
  · exact ha k succeeds e

/-- The call that acts goes on to an `Initialize` or `Start` only from an `Initialize` or alone. -/
theorem Single.entered {w : Calls δ n} (h : Single c w) {i : Fin n} (halone : TestsAlone c w i)
    {a : Action} {next : Manager δ → Call δ Bool} (hi : w.rest i = .step a next)
    (hstarting : Starting c (next w.state)) :
    (∀ k succeeds, a ≠ .start c k succeeds) ∧ ¬ PipelineRuns w.state c ∧
      ∀ j, j ≠ i → ¬ Starting c (w.rest j) := by
  have hnode := h.nodes i
  rw [hi] at hnode
  rcases hnode.1 w.state hstarting with ⟨k, succeeds, rfl⟩ | ⟨rfl, e, he, hstate⟩
  · have hself : Starting c (w.rest i) := by
      rw [hi]
      exact rfl
    exact ⟨fun _ _ => nofun, h.idle i hself, fun j hj hother => hj (h.only j i hother hself)⟩
  · obtain ⟨hidle, hothers⟩ := halone next hi e he hstate
    exact ⟨fun _ _ => nofun, hidle, hothers⟩

/-- **A step** that tests alone. -/
theorem Single.step {w : Calls δ n} (h : Single c w) {i : Fin n} (halone : TestsAlone c w i) :
    Single c (stepCalls db w i) := by
  have hnodes : ∀ j, ((stepCalls db w i).rest j).EveryNode (Enters c) :=
    Pool.everyNode_step h.nodes i
  cases hi : w.rest i with
  | done r => rwa [stepCalls, Pool.step_of_done hi]
  | step a next =>
      have hself : ∀ k succeeds, a = .start c k succeeds → Starting c (w.rest i) := by
        rintro k succeeds rfl
        rw [hi]
        exact rfl
      have hentered := h.entered halone hi
      rw [stepCalls, Pool.step_of_step hi] at hnodes ⊢
      refine ⟨hnodes, fun k k' p p' hp hp' hrun hrun' => ?_, fun j hj => ?_, fun j j' hj hj' => ?_⟩
      · rcases runs_exec ⟨p, hp, hrun⟩ with hbefore | ⟨succeeds, rfl⟩
        · rcases runs_exec ⟨p', hp', hrun'⟩ with hbefore' | ⟨succeeds, rfl⟩
          · obtain ⟨q, hq, hqrun⟩ := hbefore
            obtain ⟨q', hq', hqrun'⟩ := hbefore'
            exact h.one k k' q q' hq hq' hqrun hqrun'
          · exact absurd ⟨k, hbefore⟩ (h.idle i (hself _ _ rfl))
        · rcases runs_exec ⟨p', hp', hrun'⟩ with hbefore' | ⟨succeeds', e⟩
          · exact absurd ⟨k', hbefore'⟩ (h.idle i (hself _ _ rfl))
          · cases e
            rfl
      · by_cases e : j = i
        · subst e
          obtain ⟨hne, hidle, -⟩ := hentered (by simpa using hj)
          exact not_pipelineRuns_exec hidle hne
        · have hbefore : Starting c (w.rest j) := by simpa [e] using hj
          refine not_pipelineRuns_exec (h.idle j hbefore) fun k succeeds hstart => ?_
          exact e (h.only j i hbefore (hself k succeeds hstart))
      · by_cases e : j = i
        · by_cases e' : j' = i
          · exact e.trans e'.symm
          · subst e
            have hother : Starting c (w.rest j') := by simpa [e'] using hj'
            exact absurd hother ((hentered (by simpa using hj)).2.2 j' e')
        · have hother : Starting c (w.rest j) := by simpa [e] using hj
          by_cases e' : j' = i
          · subst e'
            exact absurd hother ((hentered (by simpa using hj')).2.2 j e)
          · exact h.only j j' hother (by simpa [e'] using hj')

theorem InOrder.oneRuns {m : Manager δ} (h : InOrder m) (c : ℤ) : OneRuns c m := by
  intro k k' p p' hp hp' _ _
  rcases h.channel c with habs | ⟨e, q, hholds, -⟩
  · rw [habs.pipeline] at hp
    cases hp
  · have hentry : ∀ {k : ℕ} {p : ChannelPipeline}, m.pipelines c k = some p → k = e.pipeline := by
      intro k p hp
      rw [hholds.pipeline] at hp
      by_contra hne
      rw [if_neg hne] at hp
      cases hp
    exact (hentry hp).trans (hentry hp').symm

/-- **Started once.**  Calls that run at the same time, in any order of their steps: no pipeline of
the channel that runs is initialised or started, and no two of them run, as long as each start that
finds the channel not running finds it so alone. -/
theorem startedOnce_of_alone (hm : InOrder m) (c : ℤ) (requests : Fin n → Request)
    (sched : List (Fin n))
    (h : EveryStep (stepCalls db) (TestsAlone c) (beginCalls m requests) sched) :
    StartedOnce db c (beginCalls m requests) sched := by
  have huntested : ∀ i, Untested c ((requests i).program : Call δ Bool) := fun i =>
    (requests i).untested
  have hbegin : Single c (beginCalls m requests) :=
    ⟨fun i => (huntested i).2, hm.oneRuns c, fun i hi => absurd hi (huntested i).1,
      fun i _ hi => absurd hi (huntested i).1⟩
  refine ⟨h.of_invariant (fun w i hw halone => hw.step halone)
    (fun w i hw _ => hw.nextFindsIdle i) hbegin, ?_⟩
  exact (along_of_everyStep (P := Single c) (fun w i hw halone => hw.step halone) hbegin h).mono
    fun w hw => hw.one

theorem oneChannel_inOrder : InOrder oneChannel :=
  apply_inOrder (newManager_inOrder _ _) _

/-- The call is not at a start's test. -/
def pastTest : Call δ Bool → Bool
  | .step (.startFind _) _ => false
  | _ => true

theorem testsAlone_of_pastTest {w : Calls δ n} {i : Fin n} (h : pastTest (w.rest i) = true) :
    TestsAlone c w i := by
  intro next hi
  rw [hi] at h
  cases h

def twoStarts : Fin 2 → Request := ![.start 1 {}, .start 1 {}]

/-- The second start comes when the first is through. -/
theorem startedOnce_inTurn :
    StartedOnce noStore 1 (beginCalls oneChannel twoStarts) [0, 0, 0, 0, 0, 0, 0, 0, 0, 1, 1] := by
  refine startedOnce_of_alone oneChannel_inOrder 1 twoStarts _ ?_
  refine ⟨fun next hnext e he hstate => ⟨?_, fun j hj => ?_⟩, ?_⟩
  · intro hruns
    obtain ⟨e', he', hrun⟩ := (oneChannel_inOrder.registeredIffRunning 1).2.mp hruns
    obtain rfl := Option.some.inj (he.symm.trans he')
    exact hstate hrun
  · have hother : j = 1 := by omega
    subst hother
    exact id
  · refine ⟨testsAlone_of_pastTest rfl, testsAlone_of_pastTest rfl, testsAlone_of_pastTest rfl,
      testsAlone_of_pastTest rfl, testsAlone_of_pastTest rfl, testsAlone_of_pastTest rfl,
      testsAlone_of_pastTest rfl, testsAlone_of_pastTest rfl, ?_, testsAlone_of_pastTest rfl,
      trivial⟩
    intro next hnext e he hstate
    obtain rfl := Option.some.inj he
    exact absurd rfl hstate

/-- Both starts find the channel not running; the second initialises the pipeline that the first has
started. -/
theorem startedOnce_refuted :
    ¬ ∀ (m : Manager Unit), InOrder m → ∀ (c : ℤ) (n : ℕ) (requests : Fin n → Request)
      (sched : List (Fin n)), StartedOnce noStore c (beginCalls m requests) sched := by
  intro h
  have honce := h oneChannel oneChannel_inOrder 1 2 twoStarts [0, 1, 0, 0, 1]
  have hidle := honce.idle.2.2.2.2.1 _ _ rfl rfl _ rfl
  cases hidle

end LoongNvr.Channel
