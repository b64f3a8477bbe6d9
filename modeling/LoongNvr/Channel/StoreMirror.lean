import LoongNvr.Channel.ChannelStore
import LoongNvr.Channel.EditCapacity

/-!
# Channel — StoreMirror

The channel store against the channels in memory.

* `View`: the store and the configurations, all that is compared.
* `view_startChannel` and its siblings: what each call does to it.
-/

namespace LoongNvr.Channel
open Support Program
open LoongNvr.Pipeline (kMaxChannels)

variable {δ : Type*} {db : StoreCalls δ} {m : Manager δ} {a : Action} {id c : ℤ}

/-! ### What is compared -/

/-- The store and the channels' configurations. -/
@[ext] structure View (δ : Type*) where
  store : Option δ
  config : (id : ℤ) → Option (ConfigOf id)

/-- What the manager keeps of it. -/
def Manager.view (m : Manager δ) : View δ where
  store := m.store
  config id := (m.channels.lookup id).map (·.config)

/-- The channel has this configuration, in memory and in the store. -/
def View.put (v : View δ) (db : StoreCalls δ) (id : ℤ) (config : ConfigOf id) : View δ where
  store := v.store.map (db.save config.1)
  config := Function.update v.config id (some config)

/-- The channel is neither in memory nor in the store. -/
def View.drop (v : View δ) (db : StoreCalls δ) (id : ℤ) : View δ where
  store := v.store.map (db.delete id)
  config := Function.update v.config id none

theorem put_config_self (v : View δ) (config : ConfigOf id) :
    (v.put db id config).config id = some config := Function.update_self _ _ _

theorem put_config_ne (v : View δ) (h : c ≠ id) (config : ConfigOf id) :
    (v.put db id config).config c = v.config c := Function.update_of_ne h _ _

/-- The action changes neither the store nor a configuration. -/
@[simp] def Action.Quiet : Action → Prop
  | .deleteFind _ | .detect _ _ | .install _ _ _ | .save _ | .delete _ => False
  | _ => True

/-- A change of an entry that spares the configuration is not seen. -/
theorem view_modifyEntry (m : Manager δ) {f : ChannelEntry id → ChannelEntry id}
    (hf : ∀ e, (f e).config = e.config) : (m.modifyEntry id f).view = m.view := by
  refine View.ext rfl (funext fun c => ?_)
  by_cases e : c = id
  · subst e
    simp only [Manager.view, Manager.lookup_modifyEntry, Option.map_map]
    exact congrArg (Option.map · _) (funext hf)
  · simp only [Manager.view, Manager.lookup_modifyEntry_ne e]

/-- A quiet action is not seen. -/
theorem view_exec_quiet (ha : a.Quiet) : (m.exec db 0 a).view = m.view := by
  cases a with
  | deleteFind | detect | install | save | delete => exact ha.elim
  | setState id state message =>
      exact view_modifyEntry m (f := fun e =>
        { e with state := state, errorMessage := message.getD e.errorMessage }) fun _ => rfl
  | stopFind id =>
      simp only [Manager.exec, Manager.apply]
      split
      · rfl
      · split
        · exact view_modifyEntry m (f := fun e => { e with state := .stopping })
            fun _ => rfl
        · rfl
  | _ =>
      simp only [Manager.exec, Manager.apply]
      (repeat' split) <;> rfl

/-- Nor is a call of quiet actions, whatever they return. -/
theorem view_call_quiet {ρ : Type*} {p : Call δ ρ} (hp : p.All Action.Quiet) :
    (m.call db p).2.view = m.view :=
  hp.run (J := fun m' => m'.view = m.view) (fun _ _ ha hm => (view_exec_quiet ha).trans hm) rfl

theorem view_config (m : Manager δ) (id : ℤ) :
    m.view.config id = (m.channels.lookup id).map (·.config) := rfl

/-! ### Actions that are not quiet -/

/-- What the stream turned out to be is taken over in memory and saved. -/
theorem view_detect (config : ConfigOf id) (h : m.view.config id = some config)
    (info : StreamInfo) :
    (m.exec db 0 (.detect id info)).view = m.view.put db id (config.detect info) := by
  obtain ⟨e, he, rfl⟩ := Option.map_eq_some_iff.mp h
  simp only [Manager.exec, Manager.apply, he]
  refine View.ext rfl (funext fun c => ?_)
  by_cases hc : c = id
  · subst hc
    simp [Manager.view, View.put, he]
  · simp [Manager.view, View.put, hc, Manager.lookup_modifyEntry_ne]

/-- A new pipeline comes with its configuration, in memory only. -/
theorem view_install (db : StoreCalls δ) (hid : id ∈ m.channels) (config : ConfigOf id) (n : ℕ) :
    (m.exec db 0 (.install id config n)).view =
      { m.view with config := Function.update m.view.config id (some config) } := by
  obtain ⟨e, h⟩ := Option.isSome_iff_exists.mp (AList.lookup_isSome.mpr hid)
  simp only [Manager.exec, Manager.apply, h]
  refine View.ext rfl (funext fun c => ?_)
  by_cases hc : c = id
  · subst hc
    simp [Manager.view, h]
  · simp [Manager.view, hc, Manager.lookup_modifyEntry_ne]

theorem view_save (config : ChannelConfig) :
    (m.exec db 0 (.save config)).view = { m.view with store := m.store.map (db.save config) } := rfl

/-- A deletion begins by taking the channel out of memory. -/
theorem view_deleteFind {e : ChannelEntry id} (h : m.channels.lookup id = some e) :
    (m.exec db 0 (.deleteFind id)).view =
      { m.view with config := Function.update m.view.config id none } := by
  simp only [Manager.exec, Manager.apply, h]
  refine View.ext rfl (funext fun c => ?_)
  by_cases hc : c = id
  · subst hc
    simp [Manager.view]
  · simp [Manager.view, hc]

/-- A deletion ends by taking the channel out of the store. -/
theorem view_delete (id : ℤ) :
    (m.exec db 0 (.delete id)).view = { m.view with store := m.store.map (db.delete id) } := rfl

/-! ### Calls -/

theorem view_withLocals {ρ : Type*} (p : Call δ ρ) :
    (m.call db (withLocals p)).2.view = (m.call db p).2.view := by
  rw [call_withLocals]
  exact view_exec_quiet (by simp)

/-- What a start that meets a stream leaves to be compared. -/
def Detected (db : StoreCalls δ) (v : View δ) (id : ℤ) (info : StreamInfo) (v' : View δ) : Prop :=
  ∃ config, v.config id = some config ∧ info.width > 0 ∧ info.height > 0 ∧
    v' = v.put db id (config.detect info)

/-- The announcement of a started channel takes over its stream if there is one. -/
theorem view_announce (db : StoreCalls δ) (config : ConfigOf id) (h : m.view.config id = some config)
    (info : StreamInfo) :
    (m.call db (announce id config info)).2.view = m.view ∨
      Detected db m.view id info (m.call db (announce id config info)).2.view := by
  have hrest : ∀ (m' : Manager δ) (config : ConfigOf id),
      (m'.call db ((registerWithStreamingServices config).bind fun _ =>
        (acts [.setState id .running (some "")]).bind fun _ => done true)).2.view = m'.view :=
    fun m' config => view_call_quiet
      (All.bind (All.acts (by simp)) fun _ => All.bind (All.acts (by simp)) fun _ => trivial)
  rw [announce, takeStreamInfo]
  simp only [bind_eq, pure_eq]
  split
  · rename_i hinfo
    rw [Manager.call, run_act_bind]
    exact .inr ⟨config, h, hinfo.1, hinfo.2, (hrest _ _).trans (view_detect config h info)⟩
  · exact .inl (hrest m config)

/-- **A start** takes over what the stream turned out to be, or leaves everything. -/
theorem view_startChannel (db : StoreCalls δ) (id : ℤ) (o : StartOutcome) :
    (m.call db (startChannel id o)).2.view = m.view ∨
      ∃ e, m.channels.lookup id = some e ∧ e.state ≠ .running ∧ o.initializes ∧ o.starts ∧
        Detected db m.view id o.info (m.call db (startChannel id o)).2.view := by
  rw [startChannel, view_withLocals]
  simp only [bind_eq, pure_eq, Manager.call, run_act_bind]
  have hfind : (m.exec db 0 (.startFind id)).view = m.view := view_exec_quiet (by simp)
  have hfail : ∀ message, ((acts [.setState id .error (some message)]).bind fun _ =>
      done false : Call δ Bool).All Action.Quiet :=
    fun message => All.bind (All.acts (by simp)) fun _ => trivial
  cases he : m.channels.lookup id with
  | none => exact .inl hfind
  | some e =>
      dsimp only
      by_cases hstate : e.state = .running
      · rw [if_pos hstate]
        exact .inl hfind
      rw [if_neg hstate, run_act_bind]
      have hinit : ((m.exec db 0 (.startFind id)).exec db 0
          (.initializeStages id e.pipeline o.initializes)).view = m.view :=
        (view_exec_quiet (by simp)).trans hfind
      by_cases hi : o.initializes = true
      · rw [if_pos hi, run_act_bind]
        have hstart : (((m.exec db 0 (.startFind id)).exec db 0
            (.initializeStages id e.pipeline o.initializes)).exec db 0
            (.start id e.pipeline o.starts)).view = m.view :=
          (view_exec_quiet (by simp)).trans hinit
        split
        · rename_i hand
          have hs := (Bool.and_eq_true_iff.mp hand).2
          have hconfig : m.view.config id = some e.config := congrArg (Option.map _) he
          have hannounce := view_announce db e.config (hstart ▸ hconfig) o.info
          rw [hstart] at hannounce
          exact hannounce.imp_right fun hdetected => ⟨e, rfl, hstate, hi, hs, hdetected⟩
        · exact .inl ((view_call_quiet (hfail _)).trans hstart)
      · rw [if_neg hi]
        exact .inl ((view_call_quiet (hfail _)).trans hinit)

theorem Action.Stops.quiet (h : a.Stops c) : a.Quiet := by
  cases a <;> simp_all

theorem stopChannel_quiet (id : ℤ) : (stopChannel id : Call δ Bool).All Action.Quiet :=
  (stopChannel_stops id).mono fun _ h => h.quiet

/-- **A deletion** of a channel that is there. -/
theorem view_deleteChannel {e : ChannelEntry id} (h : m.channels.lookup id = some e) :
    (m.call db (deleteChannel id)).2.view = m.view.drop db id := by
  have hstop : ((m.exec db 0 (.deleteFind id)).call db
      (when (e.state = .running) (acts [.drainAndStop id e.pipeline]))).2.view =
        { m.view with config := Function.update m.view.config id none } :=
    (view_call_quiet (All.when fun _ => All.acts (by simp))).trans (view_deleteFind h)
  rw [deleteChannel, view_withLocals]
  simp only [bind_eq, pure_eq, Manager.call, run_act_bind]
  rw [h]
  simp only [run_bind, run_acts, run_done, List.foldl_cons, List.foldl_nil]
  rw [Manager.call] at hstop
  generalize run (Manager.exec db 0) (when (e.state = .running) (acts [.drainAndStop id e.pipeline]))
    (m.exec db 0 (.deleteFind id)) = r at hstop
  have hunregister : (r.2.call db (unregisterFromStreamingServices id)).2.view = r.2.view :=
    view_call_quiet ((unregister_stops id).mono fun _ h => h.quiet)
  rw [Manager.call] at hunregister
  generalize run (Manager.exec db 0) (unregisterFromStreamingServices id) r.2 = r' at hunregister
  have hremoved : (r'.2.exec db 0 (.onChannelRemoved id)).view = _ :=
    ((view_exec_quiet (by simp)).trans hunregister).trans hstop
  rw [view_delete]
  exact congrArg (fun v : View δ => { v with store := v.store.map (db.delete id) }) hremoved

/-- A deletion of a channel that is not there leaves everything. -/
theorem view_deleteChannel_absent (h : m.channels.lookup id = none) :
    (m.call db (deleteChannel id)).2.view = m.view := by
  rw [deleteChannel, view_withLocals]
  simp only [bind_eq, pure_eq, Manager.call, run_act_bind]
  rw [h]
  have hsame : m.apply db 0 (.deleteFind id) = m := by simp only [Manager.apply, h]
  rw [Manager.exec, hsame]
  rfl

/-- The first half of an edit, up to where the channel is stopped, is not seen. -/
theorem view_edited (db : StoreCalls δ) (e : ChannelEntry id) : (edited db m e).view = m.view := by
  have hfind : (m.exec db 0 (.editFind id)).view = m.view := view_exec_quiet (by simp)
  have hhalt : ((m.exec db 0 (.editFind id)).call db
      (when (e.state = .running) (halt id e.pipeline))).2.view = m.view :=
    (view_call_quiet (All.when fun _ => (halt_stops id e.pipeline).mono fun _ h => h.quiet)).trans
      hfind
  exact (view_exec_quiet (by simp)).trans hhalt

/-- The second half of an edit where there are too many channels. -/
theorem view_rebuild_full (hfull : m.channelResources.keys.length ≥ kMaxChannels)
    (config : ConfigOf id) (restart : Bool) (o : StartOutcome) :
    (m.call db (rebuild id config restart o)).2.view = m.view := by
  have hbuild := call_buildPipeline db m config
  rw [Manager.call] at hbuild
  rw [Manager.call, rebuild, bind_eq, run_bind, hbuild, if_pos hfull]
  have hcount : (m.exec db 0 .countResources).view = m.view := view_exec_quiet (by simp)
  have hrest : ((acts [.setState id .error (some "pipeline rebuild failed")]).bind fun _ =>
      done false : Call δ Bool).All Action.Quiet := All.bind (All.acts (by simp)) fun _ => trivial
  exact (view_call_quiet hrest).trans hcount

/-- The second half, where there is room, puts the new configuration in memory and in the store. -/
theorem view_installed (db : StoreCalls δ) (hid : id ∈ m.channels) (config : ConfigOf id) :
    (installed db m config).view = m.view.put db id config := by
  have hkept : id ∈ ((m.exec db 0 .countResources).exec db 0
      (.build id config m.channelResources.keys.length)).channels :=
    Manager.mem_exec.mpr ⟨Manager.mem_exec.mpr ⟨hid, by simp⟩, by simp⟩
  have hbuilt : ((m.exec db 0 .countResources).exec db 0
      (.build id config m.channelResources.keys.length)).view = m.view :=
    (view_exec_quiet (by simp)).trans (view_exec_quiet (by simp))
  have hinstall := view_install db hkept config m.built
  rw [hbuilt] at hinstall
  rw [installed, view_save]
  generalize Manager.exec db 0 _ (.install id config m.built) = m' at hinstall ⊢
  exact congrArg (fun v : View δ => { v with store := v.store.map (db.save config.1) }) hinstall

/-! ### New channels -/

/-- A channel put in keeps its configuration in memory only. -/
theorem view_addChannel {config : ConfigOf id} {m' : Manager δ}
    (h : m.addChannel db id config = some m') :
    m'.view = { m.view with config := Function.update m.view.config id (some config) } ∧
      ∃ e, m'.channels.lookup id = some e ∧ e.config = config ∧ e.state = .created := by
  rw [Manager.addChannel, call_buildPipeline] at h
  by_cases hfull : m.channelResources.keys.length ≥ kMaxChannels
  · rw [if_pos hfull] at h
    cases h
  rw [if_neg hfull] at h
  have hbuilt : ((m.exec db 0 .countResources).exec db 0
      (.build id config m.channelResources.keys.length)).view = m.view :=
    (view_exec_quiet (by simp)).trans (view_exec_quiet (by simp))
  generalize (m.exec db 0 .countResources).exec db 0
    (.build id config m.channelResources.keys.length) = built at h hbuilt
  cases h
  have hstore : built.store = m.store := congrArg View.store hbuilt
  refine ⟨View.ext hstore (funext fun c => ?_), _, AList.lookup_insert _, rfl, rfl⟩
  have hold : built.view.config c = m.view.config c := congrArg (View.config · c) hbuilt
  by_cases hc : c = id
  · subst hc
    simp [Manager.view]
  · simp only [Function.update_of_ne hc]
    rw [← hold]
    simp [Manager.view, hc]

/-- Telling the orchestrator of a new channel is not seen. -/
theorem view_onChannelAdded (m : Manager δ) (id : ℤ) : (m.onChannelAdded id).view = m.view := by
  unfold Manager.onChannelAdded
  split <;> rfl

/-- **A creation** saves the channel it puts in, or leaves everything. -/
theorem view_createChannel (db : StoreCalls δ) (config : ChannelConfig) :
    (m.createChannel db config).2.view = m.view ∨
      m.channels.keys.length < kMaxChannels ∧ (m.createChannel db config).2.view =
        m.view.put db m.nextChannelId (config.withId m.nextChannelId) := by
  rcases Manager.createChannel_cases db m config with e | ⟨hroom, e | ⟨m', hm', e⟩⟩ <;> rw [e]
  · exact .inl rfl
  · exact .inl rfl
  · obtain ⟨hview, -⟩ := view_addChannel hm'
    refine .inr ⟨hroom, ?_⟩
    have hadded := (view_onChannelAdded m' m.nextChannelId).trans hview
    exact congrArg (fun v : View δ =>
      { v with store := v.store.map (db.save (config.withId m.nextChannelId).1) }) hadded

/-! ### Edits -/

/-- An edit of a channel that is not there leaves everything. -/
theorem view_editChannel_absent (h : m.channels.lookup id = none) (newConfig : ChannelConfig)
    (o : StartOutcome) : (m.call db (editChannel id newConfig o)).2.view = m.view := by
  rw [editChannel, view_withLocals]
  simp only [bind_eq, Manager.call, run_act_bind]
  rw [h]
  exact view_exec_quiet (by simp)

/-- An edit where there are too many channels leaves everything. -/
theorem view_editChannel_full {e : ChannelEntry id} (h : m.channels.lookup id = some e)
    (hfull : m.channelResources.keys.length ≥ kMaxChannels) (newConfig : ChannelConfig)
    (o : StartOutcome) : (m.call db (editChannel id newConfig o)).2.view = m.view := by
  rw [← edited_channelResources db e] at hfull
  rw [call_editChannel db h]
  exact ((view_exec_quiet (by simp)).trans (view_rebuild_full hfull _ _ o)).trans (view_edited db e)

/-- **An edit with room** saves the new configuration, and once more if the channel is started
again and meets a stream. -/
theorem view_editChannel_room (db : StoreCalls δ) {e : ChannelEntry id}
    (h : m.channels.lookup id = some e)
    (hroom : ¬ m.channelResources.keys.length ≥ kMaxChannels) (newConfig : ChannelConfig)
    (o : StartOutcome) :
    (m.call db (editChannel id newConfig o)).2.view = m.view.put db id (newConfig.withId id) ∨
      ∃ config, (m.call db (editChannel id newConfig o)).2.view =
        (m.view.put db id (newConfig.withId id)).put db id config := by
  have hedited : id ∈ (edited db m e).channels := by
    rw [← AList.lookup_isSome]
    have hconfig : ((edited db m e).channels.lookup id).map (·.config) = _ :=
      (congrArg (View.config · id) (view_edited db e)).trans (congrArg (Option.map _) h)
    exact Option.isSome_map.symm.trans (Option.isSome_of_eq_some hconfig)
  have hinstalled := (view_installed db hedited (newConfig.withId id)).trans
    (congrArg (View.put · db id _) (view_edited db e))
  rw [← edited_channelResources db e] at hroom
  rw [call_editChannel db h, call_rebuild_room db hedited hroom]
  dsimp only
  rw [view_exec_quiet (by simp)]
  split
  · rcases view_startChannel (m := installed db (edited db m e) (newConfig.withId id))
      db id o with hsame | ⟨_, _, _, _, _, config, _, _, _, hput⟩
    · exact .inl (hsame.trans hinstalled)
    · exact .inr ⟨_, hput.trans (congrArg (View.put · db id _) hinstalled)⟩
  · exact .inl hinstalled

end LoongNvr.Channel
