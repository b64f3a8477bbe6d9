import LoongNvr.Channel.Calls

/-!
# Channel — RegisteredRunning

Operations one after the other: a channel is registered with the services exactly when it is in
`channels_` and running, and exactly then its pipeline runs.

* `startChannel_inOrder` and its siblings: each operation keeps the manager in order.
* `registered_iff_running`: so it is along every sequence of operations.
-/

namespace LoongNvr.Channel
open Support Program

variable {δ : Type*} {db : StoreCalls δ} {m : Manager δ} {a : Action} {id c : ℤ}

/-! ### Operations -/

theorem Steady.exec_ofChannel (h : Steady m c) (ha : a.OfChannel id) (hne : c ≠ id) :
    Steady (m.exec db 0 a) c := by
  rcases h with h | ⟨e, p, h, hrun⟩
  · exact .inl (h.exec_ofChannel ha hne)
  · exact .inr ⟨e, p, h.exec_ofChannel ha hne, hrun⟩

/-- **One call** about a channel. -/
theorem InOrder.call {q : Call δ Bool} (h : InOrder m)
    (hq : (withLocals q).All (Action.OfChannel id))
    (hself : Steady (m.call db (withLocals q)).2 id) : InOrder (m.call db (withLocals q)).2 where
  locals := locals_withLocals q (oneCall_of_nil h.locals)
  channel c := by
    by_cases e : c = id
    · exact e ▸ hself
    · exact hq.run (J := fun m => Steady m c) (fun _ _ ha hs => hs.exec_ofChannel ha e)
        (h.channel c)
  fresh := by
    refine run_keeps (J := fun m => ∀ id ∈ m.channels, id < m.nextChannelId) (fun m a hm c hc => ?_)
      (withLocals q) h.fresh
    rw [Manager.nextChannelId_exec]
    exact hm c (Manager.mem_exec.mp hc).1

theorem startChannel_inOrder (h : InOrder m) (db : StoreCalls δ) (id : ℤ) (o : StartOutcome) :
    InOrder (m.call db (startChannel id o)).2 :=
  h.call (ofChannel_of_keeps (startChannel_keeps id o))
    (startChannel_steady (h.channel id) o)

theorem stopChannel_inOrder (h : InOrder m) (db : StoreCalls δ) (id : ℤ) :
    InOrder (m.call db (stopChannel id)).2 :=
  h.call (ofChannel_of_keeps (stopChannel_keeps id)) (stopChannel_steady (h.channel id))

theorem editChannel_inOrder (h : InOrder m) (db : StoreCalls δ) (id : ℤ) (newConfig : ChannelConfig)
    (o : StartOutcome) : InOrder (m.call db (editChannel id newConfig o)).2 :=
  h.call (ofChannel_of_keeps (editChannel_keeps id newConfig o))
    (editChannel_steady h.locals (h.channel id) newConfig o)

theorem deleteChannel_inOrder (h : InOrder m) (db : StoreCalls δ) (id : ℤ) :
    InOrder (m.call db (deleteChannel id)).2 :=
  h.call (deleteChannel_ofChannel id) (.inl (deleteChannel_absent h.locals (h.channel id)))

/-- The entry of a channel that is not there yet, with its pipeline just built. -/
theorem Absent.holds_add (h : Absent m id) (db : StoreCalls δ) (config : ConfigOf id) (k : ℕ) :
    Holds ({ m.exec db 0 (.build id config k) with
      channels := (m.exec db 0 (.build id config k)).channels.insert id
        { config := config, pipeline := m.built } }.dropLocals 0) id
      { config := config, pipeline := m.built }
      { config := config.1, resources := Pipeline.allocateResources k } fun _ => false := by
  refine ⟨AList.lookup_insert _, fun n => ?_, fun svc hs => ?_, Nat.lt_succ_self m.built⟩
  · by_cases hn : n = m.built
    · simp [Manager.exec, Manager.apply, Manager.owns, hn]
    · simp [Manager.exec, Manager.apply, hn, h.pipeline]
  · have hnone : m.registered svc id = none := h.registered svc hs
    simp [Manager.exec, Manager.apply, hnone]

theorem Absent.add (h : Absent m id) (config : ConfigOf id) (k : ℕ) :
    Agrees ({ m.exec db 0 (.build id config k) with
      channels := (m.exec db 0 (.build id config k)).channels.insert id
        { config := config, pipeline := m.built } }.dropLocals 0) id :=
  ⟨_, _, h.holds_add db config k, by simp⟩

/-- How a channel stands is read off these parts. -/
theorem Steady.congr {m' : Manager δ} (h : Steady m c)
    (hc : m'.channels.lookup c = m.channels.lookup c) (hp : m'.pipelines = m.pipelines)
    (hr : m'.registered = m.registered) (hs : m'.hasService = m.hasService)
    (hb : m'.built = m.built) (hres : c ∈ m'.channelResources → c ∈ m.channels ∨
      c ∈ m.channelResources) : Steady m' c := by
  rcases h with h | ⟨e, p, h, hrun⟩
  · refine .inl ⟨hc.trans h.entry, by rw [hp]; exact h.pipeline, by rw [hr, hs]; exact h.registered,
      fun hmem => ?_⟩
    exact (hres hmem).elim (AList.lookup_eq_none.mp h.entry) h.counted
  · exact .inr ⟨e, p, ⟨hc.trans h.entry, by rw [hp]; exact h.pipeline,
      by rw [hr, hs]; exact h.registered, by rw [hb]; exact h.built⟩, hrun⟩

/-- What `addChannel` does to a manager in order. -/
theorem addChannel_spec (h : InOrder m) (hid : id ∉ m.channels) {config : ConfigOf id}
    {m' : Manager δ} (hm' : m.addChannel db id config = some m') :
    m'.locals = [] ∧ (∀ c, Steady m' c) ∧ m'.nextChannelId = m.nextChannelId ∧
      ∀ c, c ∈ m'.channels ↔ c = id ∨ c ∈ m.channels := by
  rw [Manager.addChannel, call_buildPipeline] at hm'
  by_cases hmax : m.channelResources.keys.length ≥ Pipeline.kMaxChannels
  · rw [if_pos hmax] at hm'
    cases hm'
  rw [if_neg hmax] at hm'
  have hcount : ∀ c, Steady (m.exec db 0 .countResources) c := fun c =>
    Steady.exec_ofChannel (h.channel c) (a := .countResources) trivial (lt_add_one c).ne
  have hm' := (Option.some.inj hm').symm
  generalize m.channelResources.keys.length = k at hm'
  subst hm'
  refine ⟨?_, fun c => ?_, Manager.nextChannelId_exec.trans Manager.nextChannelId_exec, fun c => ?_⟩
  · exact (((oneCall_of_nil h.locals).exec db .countResources).exec db
      (.build id config k)).dropLocals db
  · by_cases e : c = id
    · subst e
      refine .inr (Absent.add ?_ config k)
      exact (hcount c).resolve_right fun ⟨e, p, h, _⟩ =>
        hid (AList.lookup_isSome.mp (Option.isSome_of_eq_some h.entry))
    · have hbuild : Steady ((m.exec db 0 .countResources).exec db 0 (.build id config k)) c :=
        (hcount c).exec_ofChannel rfl e
      exact hbuild.congr (AList.lookup_insert_ne e) rfl rfl rfl rfl .inr
  · simp [Manager.mem_exec]

theorem addChannel_inOrder (h : InOrder m) (hid : id ∉ m.channels) {config : ConfigOf id}
    {m' : Manager δ} (hm' : m.addChannel db id config = some m') (next : ℤ) (hnext : id < next)
    (hle : m.nextChannelId ≤ next) :
    InOrder { m' with nextChannelId := next } ∧ id ∈ m'.channels := by
  obtain ⟨hlocals, hsteady, -, hmem⟩ := addChannel_spec h hid hm'
  refine ⟨⟨hlocals, fun c => (hsteady c).congr rfl rfl rfl rfl rfl .inr, fun c hc => ?_⟩,
    (hmem id).mpr (.inl rfl)⟩
  rcases (hmem c).mp hc with rfl | hc
  · exact hnext
  · exact (h.fresh c hc).trans_le hle

theorem onChannelAdded_inOrder (h : InOrder m) (hid : id ∈ m.channels) :
    InOrder (m.onChannelAdded id) := by
  unfold Manager.onChannelAdded
  split
  · exact h
  · refine ⟨h.locals, fun c => (h.channel c).congr rfl rfl rfl rfl rfl fun hc => ?_, h.fresh⟩
    rcases (AList.mem_insert _).mp hc with rfl | hc
    · exact .inl hid
    · exact .inr hc

theorem createChannel_inOrder (h : InOrder m) (config : ChannelConfig) :
    InOrder (m.createChannel db config).2 := by
  have hnext : InOrder { m with nextChannelId := m.nextChannelId + 1 } :=
    ⟨h.locals, fun c => (h.channel c).congr rfl rfl rfl rfl rfl .inr, fun c hc =>
      (h.fresh c hc).trans (lt_add_one _)⟩
  have hid : m.nextChannelId ∉ m.channels := fun hmem => lt_irrefl _ (h.fresh _ hmem)
  rcases Manager.createChannel_cases db m config with e | ⟨-, e | ⟨m', hm', e⟩⟩ <;> rw [e]
  · exact h
  · exact hnext
  · obtain ⟨-, -, heq, -⟩ := addChannel_spec hnext hid hm'
    obtain ⟨horder, hmem⟩ := addChannel_inOrder hnext hid hm' m'.nextChannelId
      (heq ▸ lt_add_one _) heq.ge
    have hadded := onChannelAdded_inOrder horder hmem
    exact ⟨hadded.locals, fun c => (hadded.channel c).congr rfl rfl rfl rfl rfl .inr,
      hadded.fresh⟩

theorem loadChannel_inOrder {acc : ℕ × Manager δ} (h : InOrder acc.2) (o : ℤ → StartOutcome)
    (config : ChannelConfig) : InOrder (Manager.loadChannel db o acc config).2 := by
  rcases Manager.loadChannel_cases db o acc config with e | ⟨hid, m', hm', e⟩ <;> rw [e]
  · exact h
  · obtain ⟨-, -, heq, -⟩ := addChannel_spec h hid hm'
    obtain ⟨horder, hmem⟩ := addChannel_inOrder h hid hm' (max m'.nextChannelId (config.id + 1))
      (by simp) (heq ▸ le_max_left _ _)
    exact startChannel_inOrder (onChannelAdded_inOrder horder hmem) db config.id (o config.id)

/-- **Every operation** keeps the manager in order. -/
theorem apply_inOrder (h : InOrder m) (op : Operation) : InOrder (op.apply db m) := by
  cases op with
  | create config => exact createChannel_inOrder h config
  | start id o => exact startChannel_inOrder h db id o
  | stop id => exact stopChannel_inOrder h db id
  | edit id newConfig o => exact editChannel_inOrder h db id newConfig o
  | delete id => exact deleteChannel_inOrder h db id
  | startAll order o =>
      exact foldl_of_step (P := InOrder) (fun _ id hm => startChannel_inOrder hm db id (o id)) _ h
  | stopAll order =>
      exact foldl_of_step (P := InOrder) (fun _ id hm => stopChannel_inOrder hm db id) _ h
  | load o =>
      simp only [Operation.apply, Manager.loadChannels]
      split
      · exact h
      · exact foldl_of_step (P := fun acc : ℕ × Manager δ => InOrder acc.2)
          (fun _ config hacc => loadChannel_inOrder hacc o config) _ h

/-- A new manager, with the services and the store it is given. -/
def newManager (hasService : StreamingService → Bool) (store : Option δ) : Manager δ :=
  { hasService := hasService, store := store }

theorem newManager_inOrder (hasService : StreamingService → Bool) (store : Option δ) :
    InOrder (newManager hasService store) where
  locals := rfl
  channel _ := .inl ⟨rfl, fun _ => rfl, fun _ _ => rfl, fun h => nomatch h⟩
  fresh _ h := nomatch h

/-- The calls of a manager that has no store. -/
def noStore : StoreCalls Unit where
  save _ u := u
  delete _ u := u
  loadAll _ := []

/-! ### Registered, running -/

/-- The channel is in `channels_` with state `kRunning`. -/
def IsRunning (m : Manager δ) (id : ℤ) : Prop :=
  ∃ e, m.channels.lookup id = some e ∧ e.state = .running

/-- A pipeline of the channel has its workers running. -/
def PipelineRuns (m : Manager δ) (id : ℤ) : Prop :=
  ∃ n p, m.pipelines id n = some p ∧ p.running = true

/-- Every channel is registered with each service that is set exactly when it is running, and
exactly then has a pipeline that runs. -/
def RegisteredIffRunning (m : Manager δ) : Prop :=
  ∀ id, (∀ svc, m.hasService svc → ((m.registered svc id).isSome ↔ IsRunning m id)) ∧
    (PipelineRuns m id ↔ IsRunning m id)

theorem Absent.not_isRunning (h : Absent m id) : ¬ IsRunning m id := by
  rintro ⟨e, he, -⟩
  rw [h.entry] at he
  cases he

theorem Holds.isRunning_iff {e : ChannelEntry id} {p : ChannelPipeline}
    {reg : StreamingService → Bool} (h : Holds m id e p reg) :
    IsRunning m id ↔ e.state = .running := by
  refine ⟨fun ⟨e', he', hrun⟩ => ?_, fun hrun => ⟨e, h.entry, hrun⟩⟩
  rw [h.entry] at he'
  cases he'
  exact hrun

theorem Holds.pipelineRuns_iff {e : ChannelEntry id} {p : ChannelPipeline}
    {reg : StreamingService → Bool} (h : Holds m id e p reg) :
    PipelineRuns m id ↔ p.running = true := by
  refine ⟨fun ⟨n, p', hp', hrun⟩ => ?_, fun hrun => ⟨e.pipeline, p, by rw [h.pipeline, if_pos rfl],
    hrun⟩⟩
  rw [h.pipeline] at hp'
  split at hp'
  · cases hp'
    exact hrun
  · cases hp'

theorem InOrder.registeredIffRunning (h : InOrder m) : RegisteredIffRunning m := by
  intro id
  rcases h.channel id with habs | ⟨e, p, hholds, hrun⟩
  · refine ⟨fun svc hsvc => ?_, ?_⟩
    · simp [habs.registered svc hsvc, habs.not_isRunning]
    · refine iff_of_false (fun ⟨n, p, hp, _⟩ => ?_) habs.not_isRunning
      rw [habs.pipeline] at hp
      cases hp
  · rw [hholds.isRunning_iff, hholds.pipelineRuns_iff]
    exact ⟨fun svc hsvc => by rw [hholds.registered svc hsvc, hrun], hrun⟩

/-- **Registered exactly when running.**  Along every sequence of operations, each run to its end
and whatever its pipelines answer: after each, a channel is registered with the services exactly
when it is in `channels_` with state `kRunning`, and exactly then its pipeline runs. -/
theorem registered_iff_running (db : StoreCalls δ) (hasService : StreamingService → Bool)
    (store : Option δ) (ops : List Operation) :
    Along (Operation.apply db) RegisteredIffRunning (newManager hasService store) ops :=
  (along_of_step (P := InOrder) (fun _ op hm => apply_inOrder hm op) ops
    (newManager_inOrder hasService store)).mono fun _ hm => hm.registeredIffRunning

end LoongNvr.Channel
