import LoongNvr.Channel.RegisteredRunning

/-!
# Channel — EditCapacity

Editing a channel when there are as many as there may be.  `BuildPipeline` counts the resources of
all channels, those of the channel being rebuilt included.

* `Counted`: each channel has its resources, so between operations there are as many of the one as
  of the other.
* `EditSafe`: an edit does not fail for lack of capacity, and where it fails the channel is as it
  was.
* `editSafe_iff`: that is so exactly where there are fewer channels than there may be and, if the
  channel was running, its new pipeline starts.
-/

namespace LoongNvr.Channel
open Support Program
open LoongNvr.Pipeline (kMaxChannels)

variable {δ : Type*} {db : StoreCalls δ} {m : Manager δ} {a : Action} {id c : ℤ}

/-! ### As many resources as channels -/

/-- Each channel has its resources. -/
def Counted (m : Manager δ) : Prop := ∀ id ∈ m.channels, id ∈ m.channelResources

theorem mem_channelResources_exec (ha : ∀ id, a ≠ .onChannelRemoved id)
    (h : c ∈ m.channelResources) : c ∈ (m.exec db 0 a).channelResources := by
  by_cases hbuild : ∃ config n, a = .build c config n
  · obtain ⟨config, n, rfl⟩ := hbuild
    exact (AList.mem_insert _).mpr (.inl rfl)
  · refine (Manager.mem_channelResources_exec_of_ne (fun config n e => ?_) (ha c)).mpr h
    exact hbuild ⟨config, n, e⟩

theorem Counted.exec (h : Counted m) (db : StoreCalls δ) (ha : ∀ id, a ≠ .onChannelRemoved id) :
    Counted (m.exec db 0 a) := fun c hc =>
  mem_channelResources_exec ha (h c (Manager.mem_exec.mp hc).1)

theorem Counted.call {q : Call δ Bool} (h : Counted m) (db : StoreCalls δ)
    (hq : q.All (Action.Keeps id)) :
    Counted (m.call db q).2 :=
  hq.run (J := Counted) (fun _ _ ha hm => hm.exec db ha.2) h

/-- The others keep theirs in a call about one channel. -/
theorem Counted.others {q : Call δ Bool} (h : Counted m) (hq : q.All (Action.OfChannel id))
    (hc : c ≠ id) (hmem : c ∈ (m.call db q).2.channels) :
    c ∈ (m.call db q).2.channelResources := by
  refine hq.run (J := fun m => c ∈ m.channels → c ∈ m.channelResources) ?_ (h c) hmem
  intro m a ha hm hmem
  exact (Manager.mem_channelResources_exec_ofChannel ha hc).mpr (hm (Manager.mem_exec.mp hmem).1)

theorem deleteChannel_counted (hm : InOrder m) (h : Counted m) (id : ℤ) :
    Counted (m.call db (deleteChannel id)).2 := by
  intro c hc
  have hgone : (m.call db (deleteChannel id)).2.channels.lookup id = none :=
    (deleteChannel_absent hm.locals (hm.channel id)).entry
  refine h.others (deleteChannel_ofChannel id) ?_ hc
  rintro rfl
  exact AList.lookup_eq_none.mp hgone hc

theorem addChannel_counted (h : Counted m) {config : ConfigOf id} {m' : Manager δ}
    (hm' : m.addChannel db id config = some m') : Counted m' := by
  rw [Manager.addChannel, call_buildPipeline] at hm'
  by_cases hmax : m.channelResources.keys.length ≥ kMaxChannels
  · rw [if_pos hmax] at hm'
    cases hm'
  · rw [if_neg hmax] at hm'
    cases hm'
    have hbuilt := (h.exec db (a := .countResources) (by simp)).exec db
      (a := .build id config m.channelResources.keys.length) (by simp)
    intro c hc
    rcases (AList.mem_insert _).mp hc with rfl | hold
    · exact (AList.mem_insert _).mpr (.inl rfl)
    · exact hbuilt c hold

theorem onChannelAdded_counted (h : Counted m) (id : ℤ) : Counted (m.onChannelAdded id) := by
  unfold Manager.onChannelAdded
  split
  · exact h
  · exact fun c hc => (AList.mem_insert _).mpr (.inr (h c hc))

theorem createChannel_counted (h : Counted m) (config : ChannelConfig) :
    Counted (m.createChannel db config).2 := by
  have hnext : Counted { m with nextChannelId := m.nextChannelId + 1 } := h
  rcases Manager.createChannel_cases db m config with e | ⟨-, e | ⟨m', hm', e⟩⟩ <;> rw [e]
  · exact h
  · exact hnext
  · have hadded : Counted m' := addChannel_counted hnext hm'
    exact onChannelAdded_counted hadded _

theorem loadChannel_counted {acc : ℕ × Manager δ} (h : Counted acc.2) (o : ℤ → StartOutcome)
    (config : ChannelConfig) : Counted (Manager.loadChannel db o acc config).2 := by
  rcases Manager.loadChannel_cases db o acc config with e | ⟨-, m', hm', e⟩ <;> rw [e]
  · exact h
  · have hadded : Counted m' := addChannel_counted h hm'
    have hnext : Counted { m' with nextChannelId := max m'.nextChannelId (config.id + 1) } :=
      hadded
    exact (onChannelAdded_counted hnext config.id).call db
      (startChannel_keeps config.id (o config.id))

/-- **Every operation** leaves each channel its resources. -/
theorem apply_counted (hm : InOrder m) (h : Counted m) (op : Operation) :
    Counted (op.apply db m) := by
  cases op with
  | create config => exact createChannel_counted h config
  | start id o => exact h.call db (startChannel_keeps id o)
  | stop id => exact h.call db (stopChannel_keeps id)
  | edit id newConfig o => exact h.call db (editChannel_keeps id newConfig o)
  | delete id => exact deleteChannel_counted hm h id
  | startAll order o =>
      exact foldl_of_step (P := Counted) (fun _ id hm => hm.call db (startChannel_keeps id (o id))) _ h
  | stopAll order =>
      exact foldl_of_step (P := Counted) (fun _ id hm => hm.call db (stopChannel_keeps id)) _ h
  | load o =>
      simp only [Operation.apply, Manager.loadChannels]
      split
      · exact h
      · exact foldl_of_step (P := fun acc : ℕ × Manager δ => Counted acc.2)
          (fun _ config hacc => loadChannel_counted hacc o config) _ h

/-- The manager after a sequence of operations. -/
def managerAfter (db : StoreCalls δ) (hasService : StreamingService → Bool) (store : Option δ)
    (ops : List Operation) : Manager δ :=
  ops.foldl (Operation.apply db) (newManager hasService store)

theorem managerAfter_spec (db : StoreCalls δ) (hasService : StreamingService → Bool)
    (store : Option δ) (ops : List Operation) :
    InOrder (managerAfter db hasService store ops) ∧
      Counted (managerAfter db hasService store ops) :=
  foldl_of_step (P := fun m => InOrder m ∧ Counted m)
    (fun _ op hm => ⟨apply_inOrder hm.1 op, apply_counted hm.1 hm.2 op⟩) ops
    ⟨newManager_inOrder hasService store, fun _ h => nomatch h⟩

theorem length_channelResources (hm : InOrder m) (h : Counted m) :
    m.channelResources.keys.length = m.channels.keys.length := by
  refine List.Perm.length_eq ((List.perm_ext_iff_of_nodup m.channelResources.keys_nodup
    m.channels.keys_nodup).mpr fun c => ?_)
  refine ⟨fun hc => ?_, h c⟩
  rcases hm.channel c with habs | ⟨e, p, hholds, -⟩
  · exact absurd hc habs.counted
  · exact AList.lookup_isSome.mp (Option.isSome_of_eq_some hholds.entry)

/-! ### Editing -/

/-- The action counts or uncounts a channel. -/
@[simp] def Action.Counts : Action → Prop
  | .build _ _ _ | .onChannelRemoved _ => True
  | _ => False

theorem channelResources_exec (ha : ¬ a.Counts) :
    (m.exec db 0 a).channelResources = m.channelResources := by
  cases a with
  | build id config n => exact absurd trivial ha
  | onChannelRemoved id => exact absurd trivial ha
  | _ =>
      simp only [Manager.exec, Manager.apply]
      (repeat' split) <;> rfl

theorem Action.Stops.counts (h : a.Stops c) : ¬ a.Counts := by
  cases a <;> simp_all

theorem edited_channelResources (db : StoreCalls δ) (e : ChannelEntry id) :
    (edited db m e).channelResources = m.channelResources := by
  have hfind : (m.exec db 0 (.editFind id)).channelResources = m.channelResources :=
    channelResources_exec (by simp)
  have hhalt : ((m.exec db 0 (.editFind id)).call db
      (when (e.state = .running) (halt id e.pipeline))).2.channelResources = m.channelResources :=
    (All.when fun _ => (halt_stops id e.pipeline).mono fun _ h => h.counts).run
      (J := fun m' : Manager δ => m'.channelResources = m.channelResources)
      (fun _ _ ha hm => (channelResources_exec ha).trans hm) hfind
  exact (channelResources_exec (by simp)).trans hhalt

theorem built_le_edited (db : StoreCalls δ) (e : ChannelEntry id) :
    m.built ≤ (edited db m e).built := by
  have hhalt : m.built ≤ ((m.exec db 0 (.editFind id)).call db
      (when (e.state = .running) (halt id e.pipeline))).2.built :=
    run_keeps (J := fun m' : Manager δ => m.built ≤ m'.built)
      (fun _ _ hm => hm.trans Manager.built_le_exec) _ Manager.built_le_exec
  exact hhalt.trans Manager.built_le_exec

/-- The channel has the new configuration, as the stream turned out where it was started again,
and a pipeline built since, and it is running again if it was. -/
def Edited (m m' : Manager δ) (e : ChannelEntry id) (newConfig : ChannelConfig)
    (info : StreamInfo) : Prop :=
  ∃ e' p, m'.channels.lookup id = some e' ∧ m'.pipelines id e'.pipeline = some p ∧
    m.built ≤ e'.pipeline ∧ p.config = newConfig.withId id ∧
    if e.state = .running then
      e'.config = (newConfig.withId id).started info ∧ e'.state = .running ∧ p.running
    else e'.config = newConfig.withId id

/-- The channel has the configuration it had, and is running if it was. -/
def Untouched (m' : Manager δ) (e : ChannelEntry id) : Prop :=
  ∃ e', m'.channels.lookup id = some e' ∧ e'.config = e.config ∧
    (e.state = .running → e'.state = .running)

/-- An edit fails for no other reason than a pipeline that does not start; it takes effect, or it
leaves the channel as it was. -/
structure EditSafe (db : StoreCalls δ) (m : Manager δ) (e : ChannelEntry id)
    (newConfig : ChannelConfig) (o : StartOutcome) : Prop where
  succeeds : (e.state = .running → o.initializes ∧ o.starts) →
    (m.call db (editChannel id newConfig o)).1 = true
  edited : (m.call db (editChannel id newConfig o)).1 = true →
    Edited m (m.call db (editChannel id newConfig o)).2 e newConfig o.info
  untouched : (m.call db (editChannel id newConfig o)).1 = false →
    Untouched (m.call db (editChannel id newConfig o)).2 e

variable {e : ChannelEntry id} {p : ChannelPipeline}

/-- **At capacity** every edit fails, and a channel that was running is left in error. -/
theorem edit_full (db : StoreCalls δ) (h : Holds m id e p fun _ => p.running)
    (hrun : p.running ↔ e.state = .running)
    (hfull : m.channelResources.keys.length ≥ kMaxChannels) (newConfig : ChannelConfig)
    (o : StartOutcome) :
    (m.call db (editChannel id newConfig o)).1 = false ∧
      ∃ e', (m.call db (editChannel id newConfig o)).2.channels.lookup id = some e' ∧
        e'.state = .error := by
  obtain ⟨state, p', -, -, -, -, hedited⟩ := h.edited hrun db
  rw [← edited_channelResources db e] at hfull
  have hrebuild := hedited.rebuild_full db hfull (newConfig.withId id) (e.state = .running) o
  rw [call_editChannel db h.entry]
  exact ⟨hrebuild.1, _, (hrebuild.2.idle db (a := .dropLocals) (by simp)).entry, rfl⟩

/-- **With room** the edit of a channel that is not running takes effect. -/
theorem edit_room_idle (db : StoreCalls δ) (h : Holds m id e p fun _ => p.running)
    (hrun : p.running ↔ e.state = .running) (hl : m.locals = [])
    (hroom : ¬ m.channelResources.keys.length ≥ kMaxChannels) (hstate : e.state ≠ .running)
    (newConfig : ChannelConfig) (o : StartOutcome) :
    (m.call db (editChannel id newConfig o)).1 = true ∧
      Edited m (m.call db (editChannel id newConfig o)).2 e newConfig o.info := by
  obtain ⟨state, p', hp', -, -, -, hedited⟩ := h.edited hrun db
  have hbuilt := built_le_edited (m := m) db e
  rw [← edited_channelResources db e] at hroom
  have hinstalled := hedited.installed db (edited_locals hl db e) (newConfig.withId id)
  rw [call_editChannel db h.entry, call_rebuild_room db hedited.mem hroom]
  simp only [hstate, decide_false, Bool.false_eq_true, if_false]
  have hdone := hinstalled.idle db (a := .dropLocals) (by simp)
  refine ⟨trivial, _, _, hdone.entry, (hdone.pipeline _).trans (if_pos rfl), hbuilt, rfl, ?_⟩
  rw [if_neg hstate]

/-- With room the edit of a channel that is running is as good as the start of its new
pipeline. -/
theorem edit_room_running (db : StoreCalls δ) (h : Holds m id e p fun _ => p.running)
    (hrun : p.running ↔ e.state = .running) (hl : m.locals = [])
    (hroom : ¬ m.channelResources.keys.length ≥ kMaxChannels) (hstate : e.state = .running)
    (newConfig : ChannelConfig) (o : StartOutcome) :
    (m.call db (editChannel id newConfig o)).1 = (o.initializes && o.starts) ∧
      ∃ e' p', Holds (m.call db (editChannel id newConfig o)).2 id e' p' (fun _ => p'.running) ∧
        m.built ≤ e'.pipeline ∧ p'.config = newConfig.withId id ∧
        p'.running = (o.initializes && o.starts) ∧
        e'.state = (if o.initializes && o.starts then .running else .error) ∧
        e'.config = if o.initializes && o.starts then (newConfig.withId id).started o.info
          else newConfig.withId id := by
  obtain ⟨state, p', hp', -, -, -, hedited⟩ := h.edited hrun db
  have hbuilt := built_le_edited (m := m) db e
  rw [← edited_channelResources db e] at hroom
  have hinstalled := hedited.installed db (edited_locals hl db e) (newConfig.withId id)
  obtain ⟨hreturns, e', p', hstart, hpipeline, hconfig, hrest⟩ :=
    hinstalled.startChannel rfl (by simp) db o
  rw [call_editChannel db h.entry, call_rebuild_room db hedited.mem hroom]
  simp only [hstate, decide_true, if_true]
  exact ⟨hreturns, e', p', hstart.idle db (by simp), hpipeline ▸ hbuilt, hconfig, hrest⟩

theorem Untouched.running {m' : Manager δ} (h : Untouched m' e) (hstate : e.state = .running)
    {e' : ChannelEntry id} (he' : m'.channels.lookup id = some e') : e'.state = .running := by
  obtain ⟨e'', he'', -, hrunning⟩ := h
  rw [he', Option.some.injEq] at he''
  exact he'' ▸ hrunning hstate

/-- **An edit is safe** exactly where there are fewer channels than there may be and, if the
channel was running, its new pipeline starts. -/
theorem editSafe_iff (db : StoreCalls δ) (hasService : StreamingService → Bool) (store : Option δ)
    (ops : List Operation) {id : ℤ} {e : ChannelEntry id}
    (he : (managerAfter db hasService store ops).channels.lookup id = some e)
    (newConfig : ChannelConfig) (o : StartOutcome) :
    EditSafe db (managerAfter db hasService store ops) e newConfig o ↔
      (managerAfter db hasService store ops).channels.keys.length < kMaxChannels ∧
        (e.state = .running → o.initializes ∧ o.starts) := by
  obtain ⟨horder, hcounted⟩ := managerAfter_spec db hasService store ops
  generalize managerAfter db hasService store ops = m at *
  obtain ⟨p, h, hrun⟩ := horder.holds he
  rw [← length_channelResources horder hcounted]
  constructor
  · rintro ⟨hsucceeds, -, huntouched⟩
    -- with the table full the edited channel ends in `error`
    have hroom : ¬ m.channelResources.keys.length ≥ kMaxChannels := by
      intro hfull
      obtain ⟨hfails, e', he', herror⟩ := edit_full db h hrun hfull newConfig o
      by_cases hstate : e.state = .running
      · have := (huntouched hfails).running hstate he'
        rw [herror] at this
        cases this
      · rw [hsucceeds fun hs => absurd hs hstate] at hfails
        cases hfails
    refine ⟨Nat.lt_of_not_ge hroom, fun hstate => ?_⟩
    obtain ⟨hreturns, e', p', hholds, -, -, -, hstate', -⟩ :=
      edit_room_running db h hrun horder.locals hroom hstate newConfig o
    rw [← Bool.and_eq_true_iff]
    -- a start that fails leaves `error` too
    by_contra hok
    rw [Bool.not_eq_true] at hok
    rw [hok] at hreturns hstate'
    have := (huntouched hreturns).running hstate hholds.entry
    rw [hstate'] at this
    cases this
  · rintro ⟨hlt, hstarts⟩
    have hroom := Nat.not_le_of_lt hlt
    by_cases hstate : e.state = .running
    · obtain ⟨hreturns, e', p', hholds, hbuilt, hconfig, hruns, hstate', hconfig'⟩ :=
        edit_room_running db h hrun horder.locals hroom hstate newConfig o
      have hok := Bool.and_eq_true_iff.mpr (hstarts hstate)
      rw [hok] at hreturns hruns hstate' hconfig'
      refine ⟨fun _ => hreturns, fun _ => ?_, fun hfails => absurd hreturns (by simp [hfails])⟩
      refine ⟨e', p', hholds.entry, (hholds.pipeline _).trans (if_pos rfl), hbuilt, hconfig, ?_⟩
      rw [if_pos hstate]
      exact ⟨hconfig', hstate', hruns⟩
    · obtain ⟨hreturns, hedited⟩ :=
        edit_room_idle db h hrun horder.locals hroom hstate newConfig o
      exact ⟨fun _ => hreturns, fun _ => hedited, fun hfails => absurd hreturns (by simp [hfails])⟩

/-- Statements of a store that keeps nothing. -/
def storeNothing : StoreCalls Unit where
  save _ _ := ()
  delete _ _ := ()
  loadAll _ := []

def gateCamera : ChannelConfig := { rtspUrl := "rtsp://gate" }

/-- A channel, and no other. -/
theorem editSafe_one :
    EditSafe storeNothing (managerAfter storeNothing (fun _ => true) none [.create gateCamera])
      { config := gateCamera.withId 1, pipeline := 0 } { gateCamera with name := "gate" } {} :=
  (editSafe_iff storeNothing (fun _ => true) none [.create gateCamera] rfl _ _).mpr
    ⟨by decide +kernel, fun _ => ⟨rfl, rfl⟩⟩

/-- As many channels as there may be, the first of them running: no edit of it succeeds. -/
theorem editSafe_refuted :
    ¬ ∀ (db : StoreCalls Unit) (hasService : StreamingService → Bool) (store : Option Unit)
      (ops : List Operation) (id : ℤ) (e : ChannelEntry id) (newConfig : ChannelConfig)
      (o : StartOutcome), (managerAfter db hasService store ops).channels.lookup id = some e →
        EditSafe db (managerAfter db hasService store ops) e newConfig o := by
  intro h
  obtain ⟨e, he⟩ := Option.isSome_iff_exists.mp (show ((managerAfter storeNothing (fun _ => true)
    none (List.replicate kMaxChannels (.create gateCamera) ++ [.start 1 {}])).channels.lookup
      1).isSome by decide +kernel)
  have hsucceeds := (h _ _ _ _ _ e gateCamera {} he).succeeds fun _ => ⟨rfl, rfl⟩
  exact absurd hsucceeds (by decide +kernel)

end LoongNvr.Channel
