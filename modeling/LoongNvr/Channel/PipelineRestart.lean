import LoongNvr.Channel.StagedPipeline

/-!
# Channel — PipelineRestart

What a pipeline is after `Start`, over every run of its calls and threads.  `Stop` shuts the queues
down and drops what an `AiStage` analyses with, and nothing undoes either.  `Initialize` lets a
running pipeline be started again, over workers that have not been joined.

* `Whole.next`: a pipeline whose queues have not been shut down has all it was built with.
* `works_of_everyStep`: so a pipeline works that is not started again, be it stopped or running.
* `shut_of_stop`: one that was stopped takes no frame ever after.
* `terminates_of_start`: one that is started over its workers is the end of the process.
-/

namespace LoongNvr.Channel
open LoongNvr.Core LoongNvr.AiEngine Support

variable {ω ι : Type}

namespace StagedPipeline

/-! ### A working pipeline -/

/-- The `AiStage`s that were given an engine or a cascade analyse frames. -/
def Analyses (built : List (NewStage ω × ℕ)) (i : ℕ) (stage : AnyStage ω) : Prop :=
  ∀ params engine cascade capacity, built[i]? = some (.ai params engine cascade, capacity) →
    (engine.isSome ∨ cascade ≠ []) → ∃ params' a, stage = .ai params' a ∧ a.Infers

/-- While it runs, every queue takes a frame as long as there is room, every stage has a worker, and
the `AiStage`s analyse frames. -/
structure Operational (built : List (NewStage ω × ℕ)) (p : StagedPipeline ω) : Prop where
  accepts : ∀ t ∈ p.line.stations, ∀ frame, t.queue.queue.length < t.queue.capacity →
    (t.queue.push frame).2 = true
  worked : ∀ i < p.line.stations.length, p.workers i = true
  analyses : ∀ (i : ℕ) (t : StageStation ω), p.line.stations[i]? = some t → Analyses built i t.state

/-- The process has not terminated, and its pipeline works while it runs. -/
def Works (built : List (NewStage ω × ℕ)) (process : Option (StagedPipeline ω)) : Prop :=
  ∃ p, process = some p ∧ (p.running = true → Operational built p)

/-- No queue has been shut down, and there is no worker to be joined. -/
def Unused (p : StagedPipeline ω) : Prop :=
  (∀ t ∈ p.line.stations, t.queue.shutdown = false) ∧
    (List.range p.line.stations.length).any p.workers = false

/-- `Start` goes ahead on none but an unused pipeline: on any other, `state_` turns it away. -/
def StartsUnused (process : Option (StagedPipeline ω)) : PipelineStep ι → Prop
  | .start _ => ∀ p ∈ process, p.stopping = false →
      p.state = .configured ∨ p.state = .stopped → p.Unused
  | _ => True

/-! ### The flags of the queues -/

/-- `shutdown_` of the queues. -/
def flags (p : StagedPipeline ω) : List Bool := p.line.stations.map (·.queue.shutdown)

variable {m : StageMethods ω ι} {p q : StagedPipeline ω}

theorem flags_initializeEach (input : ℕ → ι) (ts : List (StageStation ω)) (i : ℕ) :
    (initializeEach m input ts i).1.map (·.queue.shutdown) = ts.map (·.queue.shutdown) := by
  induction ts generalizing i with
  | nil => rfl
  | cons t ts ih =>
      unfold initializeEach
      split
      · rfl
      · dsimp only
        rw [List.map_cons, ih, List.map_cons]

theorem flags_initializeStages (input : ℕ → ι) :
    (p.initializeStages m input).1.flags = p.flags := by
  unfold initializeStages
  split
  · rfl
  · exact flags_initializeEach input p.line.stations 0

theorem flags_start {input : ℕ → ι} {ok : Bool} (h : p.start m input = some (q, ok)) :
    q.flags = p.flags := by
  unfold start at h
  split at h
  · obtain ⟨rfl, -⟩ := Prod.mk.inj (Option.some.inj h)
    rfl
  · split at h
    · cases h
    · obtain ⟨rfl, -⟩ := Prod.mk.inj (Option.some.inj h)
      refine List.ext_getElem? fun i => ?_
      simp only [flags, setStations, List.getElem?_map, List.getElem?_mapIdx, Option.map_map]
      rfl

theorem flags_stopped : (p.stopped m).flags = p.flags := by
  unfold stopped
  split
  · simp [flags, setStations]
  · rfl

theorem flags_exit (i : ℕ) : (p.exit i).flags = p.flags := by
  unfold exit
  split
  · rfl
  · split
    · rfl
    · rfl

theorem shutdown_push (q : StageQueue) (frame : Frame) : (q.push frame).1.shutdown = q.shutdown := by
  unfold StageQueue.push
  split
  · rfl
  · split
    · split
      · rfl
      · split
        · rfl
        · rfl
    · rfl

theorem flags_push (i : ℕ) (frame : Frame) : (p.push i frame).flags = p.flags := by
  refine List.ext_getElem? fun j => ?_
  simp only [flags, push, setStations, List.getElem?_map, List.getElem?_modify]
  cases p.line.stations[j]? with
  | none => rfl
  | some t =>
      by_cases hj : i = j
      · simp [hj, shutdown_push]
      · simp [hj]

theorem flags_work (a : LineAction Unit (WorkInput ι)) : (p.work m a).flags = p.flags := by
  unfold work
  split
  · next hcan =>
      refine Line.step_queues StageQueue.shutdown shutdown_push ?_ ?_
      · intro q q' frame hpop
        replace hpop : q.pop = some (frame, q') := hpop
        unfold StageQueue.pop at hpop
        split at hpop
        · cases hpop
        · cases hpop
          rfl
      · rintro i rfl
        cases hcan
  · rfl

/-- **Only `Stop` changes the flags**, and it sets them all. -/
theorem flags_next {a : PipelineStep ι} (h : p.next m a = some q) :
    q.flags = p.flags ∨ (a = .stop ∧ p.running = true ∧ q = p.stop m) := by
  cases a with
  | initializeStages input =>
      refine .inl ?_
      rw [← Option.some.inj h]
      split
      · rfl
      · exact flags_initializeStages input
  | start input =>
      refine .inl ?_
      simp only [next] at h
      split at h
      · rw [← Option.some.inj h]
      · obtain ⟨⟨q', ok⟩, hstart, rfl⟩ := Option.map_eq_some_iff.mp h
        exact flags_start hstart
  | stop =>
      rw [← Option.some.inj h]
      split
      · exact .inl rfl
      · -- `Stop` returns at once on a pipeline that is not running
        by_cases hrunning : p.running = true
        · exact .inr ⟨rfl, hrunning, rfl⟩
        · refine .inl ?_
          rw [stop, if_neg hrunning]
  | stopped =>
      refine .inl ?_
      rw [← Option.some.inj h]
      exact flags_stopped
  | exit i =>
      refine .inl ?_
      rw [← Option.some.inj h]
      exact flags_exit i
  | push i frame =>
      refine .inl ?_
      rw [← Option.some.inj h]
      exact flags_push i frame
  | work a =>
      refine .inl ?_
      rw [← Option.some.inj h]
      exact flags_work a

theorem flags_stop (hrunning : p.running = true) :
    ∀ flag ∈ (p.stop m).flags, flag = true := by
  simp [stop, if_pos hrunning, flags, setStations, StageQueue.close]

/-! ### What stages keep -/

/-- A stage that analyses frames still does. -/
def Kept (s s' : AnyStage ω) : Prop :=
  ∀ params a, s = .ai params a → a.Infers → ∃ params' a', s' = .ai params' a' ∧ a'.Infers

theorem Kept.refl (s : AnyStage ω) : Kept s s := fun params a hs ha => ⟨params, a, hs, ha⟩

theorem Analyses.kept {built : List (NewStage ω × ℕ)} {i : ℕ} {s s' : AnyStage ω}
    (h : Analyses built i s) (hkept : Kept s s') : Analyses built i s' := by
  intro params engine cascade capacity hbuilt hgiven
  obtain ⟨params', a, hs, ha⟩ := h params engine cascade capacity hbuilt hgiven
  exact hkept params' a hs ha

theorem kept_initializeStage (input : ι) (s : AnyStage ω) :
    Kept s (s.initializeStage m input).1 := by
  rintro params a rfl ha
  exact ⟨params, a.initializeStage params, rfl, ha⟩

theorem kept_onPipelineStart (input : ι) (s : AnyStage ω) : Kept s (s.onPipelineStart m input) := by
  rintro params a rfl ha
  exact ⟨params, a, rfl, ha⟩

/-- The stages after something, each a stage before it that has been kept. -/
def KeptAll (ts ts' : List (StageStation ω)) : Prop :=
  ∀ (i : ℕ) (t' : StageStation ω), ts'[i]? = some t' →
    ∃ t, ts[i]? = some t ∧ Kept t.state t'.state

theorem KeptAll.refl (ts : List (StageStation ω)) : KeptAll ts ts :=
  fun _ t ht => ⟨t, ht, .refl _⟩

theorem KeptAll.cons {t : StageStation ω} {s : AnyStage ω} (hs : Kept t.state s)
    {ts ts' : List (StageStation ω)} (h : KeptAll ts ts') :
    KeptAll (t :: ts) ({ t with state := s } :: ts') := by
  intro i t' ht'
  cases i with
  | zero =>
      obtain rfl := Option.some.inj ht'
      exact ⟨t, rfl, hs⟩
  | succ i => exact h i t' ht'

theorem keptAll_initializeEach (input : ℕ → ι) (ts : List (StageStation ω)) (k : ℕ) :
    KeptAll ts (initializeEach m input ts k).1 := by
  induction ts generalizing k with
  | nil => exact .refl []
  | cons t ts ih =>
      have hfirst : Kept t.state (t.state.initializeStage m (input k)).1 :=
        kept_initializeStage (input k) t.state
      unfold initializeEach
      split
      · next s hinit =>
          rw [hinit] at hfirst
          exact .cons hfirst (.refl ts)
      · next s hinit =>
          rw [hinit] at hfirst
          exact .cons hfirst (ih (k + 1))

theorem keptAll_initializeStages (input : ℕ → ι) :
    KeptAll p.line.stations (p.initializeStages m input).1.line.stations := by
  unfold initializeStages
  split
  · exact .refl _
  · exact keptAll_initializeEach input _ 0

theorem keptAll_start {input : ℕ → ι} {ok : Bool} (h : p.start m input = some (q, ok)) :
    KeptAll p.line.stations q.line.stations := by
  unfold start at h
  split at h
  · obtain ⟨rfl, -⟩ := Prod.mk.inj (Option.some.inj h)
    exact .refl _
  · split at h
    · cases h
    · obtain ⟨rfl, -⟩ := Prod.mk.inj (Option.some.inj h)
      intro i t' ht'
      simp only [setStations, List.getElem?_mapIdx] at ht'
      obtain ⟨t, ht, rfl⟩ := Option.map_eq_some_iff.mp ht'
      exact ⟨t, ht, kept_onPipelineStart (input i) t.state⟩

theorem keptAll_exit (i : ℕ) : KeptAll p.line.stations (p.exit i).line.stations := by
  unfold exit
  split
  · exact .refl _
  · split
    · exact .refl _
    · exact .refl _

theorem keptAll_push (i : ℕ) (frame : Frame) :
    KeptAll p.line.stations (p.push i frame).line.stations := by
  intro j t' ht'
  simp only [push, setStations, List.getElem?_modify] at ht'
  obtain ⟨t, ht, rfl⟩ := Option.map_eq_some_iff.mp ht'
  refine ⟨t, ht, ?_⟩
  split
  · exact .refl _
  · exact .refl _

/-- A thread of the pipeline at work. -/
theorem analyses_work {built : List (NewStage ω × ℕ)}
    (h : ∀ (i : ℕ) (t : StageStation ω), p.line.stations[i]? = some t → Analyses built i t.state)
    (a : LineAction Unit (WorkInput ι)) :
    ∀ (i : ℕ) (t : StageStation ω), (p.work m a).line.stations[i]? = some t →
      Analyses built i t.state := by
  unfold work
  split
  · have hinv : LineInv (stagesLine m) (fun _ _ => True) (Analyses built) p.line :=
      ⟨fun _ _ _ _ _ => trivial, fun _ _ _ _ _ => trivial, h⟩
    refine (hinv.step (a := a) ?_ ?_).suited
    · intro i state input hstate
      refine ⟨hstate.kept ?_, fun _ _ => trivial⟩
      rintro params a rfl ha
      exact ⟨params, (a.inferWorker input.drawn).1, rfl, LiveAiStage.infers_inferWorker ha _⟩
    · intro i t frame input _ _ hstate
      refine ⟨hstate.kept ?_, fun _ _ => trivial⟩
      rintro params a hstage ha
      refine ⟨params, (a.processFrame frame).1, ?_, LiveAiStage.infers_processFrame ha _⟩
      simp only [stagesLine, hstage]
  · exact h

/-! ### Before the first stop -/

/-- A pipeline whose queues have not been shut down has what it was built with. -/
structure Whole (built : List (NewStage ω × ℕ)) (p : StagedPipeline ω) : Prop where
  analyses : (∀ flag ∈ p.flags, flag = false) →
    ∀ (i : ℕ) (t : StageStation ω), p.line.stations[i]? = some t → Analyses built i t.state
  running : p.running = true →
    (∀ flag ∈ p.flags, flag = false) ∧ ∀ i < p.line.stations.length, p.workers i = true
  stopping : p.stopping = true → ∀ flag ∈ p.flags, flag = true

variable {built : List (NewStage ω × ℕ)}

theorem length_stations_of_flags (h : q.flags = p.flags) :
    q.line.stations.length = p.line.stations.length := by
  simpa [flags] using congrArg List.length h

/-- Where all queues are shut down nothing is said of the stages. -/
theorem analyses_of_shut (hshut : ∀ flag ∈ p.flags, flag = true)
    (hopen : ∀ flag ∈ p.flags, flag = false) (i : ℕ) (t : StageStation ω)
    (ht : p.line.stations[i]? = some t) : Analyses built i t.state := by
  have hflag : t.queue.shutdown ∈ p.flags :=
    List.mem_map.mpr ⟨t, List.mem_of_getElem? ht, rfl⟩
  exact absurd ((hshut _ hflag).symm.trans (hopen _ hflag)) (by decide)

/-- A step that leaves the queues' flags, the workers and the calls, and keeps the stages. -/
theorem Whole.congr (h : Whole built p) (hflags : q.flags = p.flags)
    (hstages : (∀ (i : ℕ) (t : StageStation ω), p.line.stations[i]? = some t →
        Analyses built i t.state) →
      ∀ (i : ℕ) (t : StageStation ω), q.line.stations[i]? = some t → Analyses built i t.state)
    (hrunning : q.running = p.running) (hworkers : q.workers = p.workers)
    (hstopping : q.stopping = p.stopping) : Whole built q where
  analyses hopen := hstages (h.analyses (hflags ▸ hopen))
  running hq := by
    obtain ⟨hopen, hworked⟩ := h.running (hrunning ▸ hq)
    rw [hflags, hworkers, length_stations_of_flags hflags]
    exact ⟨hopen, hworked⟩
  stopping hq := by
    rw [hflags]
    exact h.stopping (hstopping ▸ hq)

theorem KeptAll.analyses (h : KeptAll p.line.stations q.line.stations)
    (hp : ∀ (i : ℕ) (t : StageStation ω), p.line.stations[i]? = some t → Analyses built i t.state)
    (i : ℕ) (t : StageStation ω) (ht : q.line.stations[i]? = some t) : Analyses built i t.state := by
  obtain ⟨u, hu, hkept⟩ := h i t ht
  exact (hp i u hu).kept hkept

theorem Whole.initializeStages (h : Whole built p) (input : ℕ → ι) :
    Whole built (p.initializeStages m input).1 := by
  refine h.congr (flags_initializeStages input) (keptAll_initializeStages input).analyses ?_ ?_ ?_
  all_goals
    unfold StagedPipeline.initializeStages
    split
    · rfl
    · rfl

/-- Where `state_` does not turn `Start` away. -/
theorem canStart_of_not (h : ¬ (p.state ≠ .configured ∧ p.state ≠ .stopped)) :
    p.state = .configured ∨ p.state = .stopped := by
  rwa [not_and_or, not_not, not_not] at h

theorem Whole.start (h : Whole built p) {input : ℕ → ι} {ok : Bool}
    (hstart : p.start m input = some (q, ok))
    (hunused : p.state = .configured ∨ p.state = .stopped → p.Unused)
    (hidle : p.stopping = false) : Whole built q := by
  have hflags := flags_start hstart
  have hkept := keptAll_start hstart
  unfold StagedPipeline.start at hstart
  split at hstart
  · obtain ⟨rfl, -⟩ := Prod.mk.inj (Option.some.inj hstart)
    exact h
  · next hcan =>
      have hopen : ∀ flag ∈ p.flags, flag = false := by
        intro flag hflag
        obtain ⟨t, ht, rfl⟩ := List.mem_map.mp hflag
        exact (hunused (canStart_of_not hcan)).1 t ht
      split at hstart
      · cases hstart
      · obtain ⟨rfl, -⟩ := Prod.mk.inj (Option.some.inj hstart)
        refine ⟨fun _ => hkept.analyses (h.analyses hopen), fun _ => ⟨?_, ?_⟩, fun hstopping => ?_⟩
        · rw [hflags]
          exact hopen
        · intro i hi
          rw [length_stations_of_flags hflags] at hi
          exact decide_eq_true hi
        · exact absurd (hidle.symm.trans hstopping) (by decide)

theorem Whole.stop (h : Whole built p) : Whole built (p.stop m) := by
  by_cases hrunning : p.running = true
  · have hshut := flags_stop (m := m) hrunning
    refine ⟨analyses_of_shut hshut, fun hq => ?_, fun _ => hshut⟩
    rw [StagedPipeline.stop, if_pos hrunning] at hq
    cases hq
  · rw [StagedPipeline.stop, if_neg hrunning]
    exact h

theorem Whole.stopped (h : Whole built p) : Whole built (p.stopped m) := by
  by_cases hjoined : (p.stopping && !(List.range p.line.stations.length).any p.workers) = true
  · have hshut : ∀ flag ∈ (p.stopped m).flags, flag = true := by
      rw [flags_stopped]
      exact h.stopping (Bool.and_eq_true_iff.mp hjoined).1
    have hflags := flags_stopped (m := m) (p := p)
    rw [StagedPipeline.stopped, if_pos hjoined] at hshut hflags ⊢
    refine ⟨analyses_of_shut hshut, fun hq => ?_, fun hq => absurd hq (by simp)⟩
    obtain ⟨hopen, hworked⟩ := h.running hq
    refine ⟨hflags ▸ hopen, fun i hi => hworked i ?_⟩
    rwa [length_stations_of_flags hflags] at hi
  · rw [StagedPipeline.stopped, if_neg hjoined]
    exact h

theorem Whole.exit (h : Whole built p) (i : ℕ) : Whole built (p.exit i) := by
  by_cases hrunning : p.running = true
  · have hexit : p.exit i = p := by
      unfold StagedPipeline.exit
      split
      · rfl
      · rw [if_pos (by simp [hrunning])]
    rw [hexit]
    exact h
  · have hq : (p.exit i).running = p.running ∧ (p.exit i).stopping = p.stopping := by
      unfold StagedPipeline.exit
      split
      · exact ⟨rfl, rfl⟩
      · split
        · exact ⟨rfl, rfl⟩
        · exact ⟨rfl, rfl⟩
    refine ⟨fun hopen => ?_, fun hr => absurd (hq.1 ▸ hr) hrunning, fun hs => ?_⟩
    · rw [flags_exit] at hopen
      exact (keptAll_exit i).analyses (h.analyses hopen)
    · rw [flags_exit]
      exact h.stopping (hq.2 ▸ hs)

theorem Whole.push (h : Whole built p) (i : ℕ) (frame : Frame) : Whole built (p.push i frame) :=
  h.congr (flags_push i frame) (keptAll_push i frame).analyses rfl rfl rfl

theorem Whole.work (h : Whole built p) (a : LineAction Unit (WorkInput ι)) :
    Whole built (p.work m a) := by
  refine h.congr (flags_work a) (fun hp => analyses_work hp a) ?_ ?_ ?_
  all_goals
    unfold StagedPipeline.work
    split
    · rfl
    · rfl

/-- `Start` does not terminate the process, unless there are workers to be joined. -/
theorem exists_start (input : ℕ → ι)
    (hunused : p.state = .configured ∨ p.state = .stopped → p.Unused) :
    ∃ r, p.start m input = some r := by
  unfold StagedPipeline.start
  split
  · exact ⟨_, rfl⟩
  · next hcan =>
      rw [(hunused (canStart_of_not hcan)).2]
      exact ⟨_, rfl⟩

/-- **The process goes on**, unless it starts what has been used. -/
theorem exists_next {a : PipelineStep ι} (hunused : StartsUnused (some p) a) :
    ∃ q, p.next m a = some q := by
  cases a with
  | start input =>
      simp only [StagedPipeline.next]
      split
      · exact ⟨_, rfl⟩
      · next hidle =>
          obtain ⟨r, hr⟩ := exists_start (m := m) input
            (hunused p rfl (Bool.eq_false_iff.mpr hidle))
          exact ⟨r.1, by rw [hr]; rfl⟩
  | _ => exact ⟨_, rfl⟩

/-- **One step**, unless it starts what has been used. -/
theorem Whole.next (h : Whole built p) {a : PipelineStep ι} (hstep : p.next m a = some q)
    (hunused : StartsUnused (some p) a) : Whole built q := by
  cases a with
  | initializeStages input =>
      rw [← Option.some.inj hstep]
      split
      · exact h
      · exact h.initializeStages input
  | start input =>
      simp only [StagedPipeline.next] at hstep
      split at hstep
      · rw [← Option.some.inj hstep]
        exact h
      · next hidle =>
          obtain ⟨⟨q', ok⟩, hstart, rfl⟩ := Option.map_eq_some_iff.mp hstep
          have hidle := Bool.eq_false_iff.mpr hidle
          exact h.start hstart (hunused p rfl hidle) hidle
  | stop =>
      rw [← Option.some.inj hstep]
      split
      · exact h
      · exact h.stop
  | stopped =>
      rw [← Option.some.inj hstep]
      exact h.stopped
  | exit i =>
      rw [← Option.some.inj hstep]
      exact h.exit i
  | push i frame =>
      rw [← Option.some.inj hstep]
      exact h.push i frame
  | work a =>
      rw [← Option.some.inj hstep]
      exact h.work a

theorem whole_build (stages : List (NewStage ω × ℕ)) : Whole stages (build stages) := by
  refine ⟨fun _ i t ht => ?_, fun hq => absurd hq (by simp [build]),
    fun hq => absurd hq (by simp [build])⟩
  intro params engine cascade capacity hbuilt hgiven
  simp only [build, List.getElem?_map, hbuilt, Option.map_some, Option.some.injEq] at ht
  subst ht
  refine ⟨params, _, rfl, ?_⟩
  rcases hgiven with hengine | hcascade
  · exact .inr ⟨hengine, rfl⟩
  · exact .inl hcascade

theorem push_of_open {queue : StageQueue} (hopen : queue.shutdown = false)
    (hroom : queue.queue.length < queue.capacity) (frame : Frame) : (queue.push frame).2 = true := by
  rw [StageQueue.push, if_neg (by simp [hopen]), if_neg (Nat.not_le_of_lt hroom)]

/-- A pipeline that has all it was built with works. -/
theorem Whole.operational (h : Whole built p) (hrunning : p.running = true) :
    Operational built p := by
  obtain ⟨hopen, hworked⟩ := h.running hrunning
  refine ⟨fun t ht frame hroom => ?_, hworked, h.analyses hopen⟩
  exact push_of_open (hopen _ (List.mem_map.mpr ⟨t, ht, rfl⟩)) hroom frame

/-- **A pipeline works while it runs, in every state of a run that starts it only where its queues
have not been shut down and no worker is left to be joined.** -/
theorem works_of_everyStep (m : StageMethods ω ι) (stages : List (NewStage ω × ℕ))
    (steps : List (PipelineStep ι))
    (h : EveryStep (step m) StartsUnused (some (build stages)) steps) :
    Along (step m) (Works stages) (some (build stages)) steps := by
  have hstep : ∀ (process : Option (StagedPipeline ω)) a,
      (∃ p, process = some p ∧ Whole stages p) → StartsUnused process a →
        ∃ q, step m process a = some q ∧ Whole stages q := by
    rintro _ a ⟨p, rfl, hwhole⟩ hunused
    obtain ⟨q, hnext⟩ := exists_next hunused
    exact ⟨q, hnext, hwhole.next hnext hunused⟩
  refine (along_of_everyStep hstep ⟨_, rfl, whole_build stages⟩ h).mono ?_
  rintro _ ⟨p, rfl, hwhole⟩
  exact ⟨p, rfl, hwhole.operational⟩

/-- Stages of other classes that pass every frame on. -/
def passOn : StageMethods Unit Unit where
  initializeStage _ s := (s, true)
  processFrame _ s frame := (s, [frame])
  background _ s := (s, [])
  onPipelineStart _ s := s
  onPipelineStop s := s
  shutdown s := s

/-- An `AiStage` with an engine, and a stage of another class behind it. -/
def twoStages : List (NewStage Unit × ℕ) :=
  [(.ai {} (some { infer := fun _ _ => some [] }) [], 32), (.other (), 64)]

/-- A pipeline is started, a second time in vain, a frame goes in, and it is stopped. -/
theorem works_once :
    Along (step passOn) (Works twoStages) (some (build twoStages))
      [.initializeStages fun _ => (), .start fun _ => (), .start fun _ => (),
        .push 0 { origin := 0 }, .work (.take 0 ⟨none, ()⟩), .work (.pass 0), .stop, .exit 0] :=
  works_of_everyStep passOn twoStages _
    ⟨trivial, by rintro p ⟨⟩ - -; exact ⟨by decide, by decide⟩,
      by rintro p ⟨⟩ - hcan; exact absurd hcan (by decide),
      trivial, trivial, trivial, trivial, trivial, trivial⟩

/-- `Start` is called on a pipeline that `Initialize` has configured. -/
def Configured (process : Option (StagedPipeline ω)) : PipelineStep ι → Prop
  | .start _ => ∀ p ∈ process, p.state = .configured
  | _ => True

/-- Stopped, initialized and started again, the pipeline takes no frame. -/
theorem works_refuted :
    ¬ ∀ (m : StageMethods Unit Unit) (stages : List (NewStage Unit × ℕ))
      (steps : List (PipelineStep Unit)), (∀ input s, (m.initializeStage input s).2 = true) →
      EveryStep (step m) Configured (some (build stages)) steps →
        Along (step m) (Works stages) (some (build stages)) steps := by
  intro h
  have hlast := (h passOn twoStages [.initializeStages fun _ => (), .start fun _ => (), .stop,
    .exit 0, .exit 1, .stopped, .initializeStages fun _ => (), .start fun _ => ()]
    (fun _ _ => rfl) ⟨trivial, by rintro p ⟨⟩; rfl, trivial, trivial, trivial, trivial, trivial,
      by rintro p ⟨⟩; rfl, trivial⟩).last
  obtain ⟨p, hp, hworks⟩ := hlast
  obtain rfl := Option.some.inj hp
  have haccepts := (hworks rfl).accepts _ List.mem_cons_self { origin := 0 } (by decide)
  exact absurd haccepts (by decide)

/-! ### After a stop -/

/-- No queue takes a frame. -/
def Shut (process : Option (StagedPipeline ω)) : Prop :=
  ∀ p ∈ process, ∀ t ∈ p.line.stations, ∀ frame, (t.queue.push frame).2 = false

/-- **A pipeline that has been stopped takes no frame ever after**, started again or not. -/
theorem shut_of_stop (hrunning : p.running = true) (steps : List (PipelineStep ι)) :
    Along (step m) Shut (some (p.stop m)) steps := by
  have hstep : ∀ (process : Option (StagedPipeline ω)) a,
      (∀ p ∈ process, ∀ flag ∈ p.flags, flag = true) →
        ∀ q ∈ step m process a, ∀ flag ∈ q.flags, flag = true := by
    intro process a hshut q hq
    obtain ⟨p, rfl, hnext⟩ := Option.bind_eq_some_iff.mp hq
    rcases flags_next hnext with hflags | ⟨-, hruns, rfl⟩
    · rw [hflags]
      exact hshut p rfl
    · exact flags_stop hruns
  have hstop : ∀ q ∈ some (p.stop m), ∀ flag ∈ q.flags, flag = true := by
    rintro q ⟨⟩
    exact flags_stop hrunning
  refine (along_of_step hstep steps hstop).mono fun process hshut p hp t ht frame => ?_
  have hflag : t.queue.shutdown = true := hshut p hp _ (List.mem_map.mpr ⟨t, ht, rfl⟩)
  rw [StageQueue.push, if_pos hflag]

/-- **A pipeline that is started over a worker** terminates the process. -/
theorem terminates_of_start (input : ℕ → ι) (hidle : p.stopping = false)
    (hcan : p.state = .configured ∨ p.state = .stopped) {i : ℕ} (hi : i < p.line.stations.length)
    (hworker : p.workers i = true) : step m (some p) (.start input) = none := by
  have hany : (List.range p.line.stations.length).any p.workers = true :=
    List.any_eq_true.mpr ⟨i, List.mem_range.mpr hi, hworker⟩
  have hgoes : ¬ (p.state ≠ .configured ∧ p.state ≠ .stopped) := by
    rintro ⟨hconfigured, hstopped⟩
    exact hcan.elim hconfigured hstopped
  have hnone : p.start m input = none := by
    rw [start, if_neg hgoes, if_pos hany]
  rw [step, Option.bind_some, next, if_neg (by simp [hidle]), hnone]
  rfl

example : [.initializeStages fun _ => (), .start fun _ => (), .initializeStages fun _ => (),
    .start fun _ => ()].foldl (step passOn) (some (build twoStages)) = none := rfl

end StagedPipeline

end LoongNvr.Channel
