import LoongNvr.Channel.Persistence

/-!
# Channel — Restart

Runs of operations, overlays and restarts against one channel store.

* `ChannelOp`: a step of such a run.
* `Persisted`: the store has the channels in memory with their configurations, and a restart brings
  them back.
* `Saved`: the step changes no overlay, and a row can hold what it saves.
* `persisted_of_saved`: along such steps all channels are persisted.
-/

namespace LoongNvr.Channel
open Support Program
open LoongNvr.Pipeline (kMaxChannels)

variable {m : Manager ChannelStore} {id c : ℤ}

/-- A new manager with the store the old one leaves, after `LoadChannels`. -/
def restart {δ : Type*} (db : StoreCalls δ) (hasService : StreamingService → Bool)
    (o : ℤ → StartOutcome) (store : Option δ) : Manager δ :=
  ((newManager hasService store).loadChannels db o).2

/-- What happens to the channels. -/
inductive ChannelOp
  | operation (op : Operation)
  | updateOverlay (id : ℤ) (overlay : OverlayConfig)
  | restart (hasService : StreamingService → Bool) (o : ℤ → StartOutcome)

def ChannelOp.apply (m : Manager ChannelStore) : ChannelOp → Manager ChannelStore
  | .operation op => op.apply channelStore m
  | .updateOverlay id overlay => (m.updateOverlayConfig id overlay).2
  | .restart hasService o => Channel.restart channelStore hasService o m.store

/-- The store has the channels in memory, with their configurations, and these are what a restart
brings back, but for what the streams turn out to be then. -/
structure PersistedIn (m : Manager ChannelStore) (store : ChannelStore) : Prop where
  ids : ∀ id, id ∈ store.loadAll.map (·.id) ↔ id ∈ m.channels
  configs : ∀ config ∈ store.loadAll, ∃ e : ChannelEntry config.id,
    m.channels.lookup config.id = some e ∧ e.config.1 = config
  restored : ∀ hasService o id,
    ((restart channelStore hasService o (some store)).channels.lookup id).map (·.config) =
      (m.channels.lookup id).map (·.config.restarted (o id))

def Persisted (m : Manager ChannelStore) : Prop :=
  ∃ store, m.store = some store ∧ PersistedIn m store

/-! ### The steps that persist -/

/-- A row can hold what the operation saves. -/
def Operation.Saved (m : Manager ChannelStore) : Operation → Prop
  | .create config => m.channels.keys.length < kMaxChannels → Storable config
  | .start id o => ∀ e, m.channels.lookup id = some e → e.state ≠ .running → o.Known
  | .edit id newConfig o => ∀ e : ChannelEntry id, m.channels.lookup id = some e →
      m.channels.keys.length < kMaxChannels → Storable (editedConfig e newConfig o).1
  | .startAll order o => ∀ id ∈ m.idsWith order false, (o id).Known
  | .stop _ | .stopAll _ | .delete _ | .load _ => True

/-- The step changes no overlay, and a row can hold what it saves. -/
def ChannelOp.Saved (m : Manager ChannelStore) : ChannelOp → Prop
  | .operation op => op.Saved m
  | .updateOverlay id overlay =>
      ∀ e, m.channels.lookup id = some e → overlay = e.config.1.overlay
  | .restart _ o => ∀ id ∈ m.channels, (o id).Known

/-- The manager between steps that persist. -/
structure Sound (m : Manager ChannelStore) : Prop where
  order : InOrder m
  counted : Counted m
  room : m.channels.keys.length ≤ kMaxChannels
  mirrored : m.view.Mirrored

/-! ### Restarts -/

/-- What `LoadAll` returns are the configurations in memory. -/
theorem mem_loadAll {store : ChannelStore} (h : m.view.Mirrored) (hstore : m.store = some store)
    (config : ChannelConfig) :
    config ∈ store.loadAll ↔ m.view.config config.id = some ⟨config, rfl⟩ := by
  have hget : ∀ id, store.get id = (m.view.config id).map (encodeChannel ·.1) ∧
      ∀ config, m.view.config id = some config → Storable config.1 := by
    intro id
    obtain ⟨store', hstore', hstores⟩ := h id
    obtain rfl : store = store' := Option.some.inj (hstore.symm.trans hstore')
    exact hstores
  have hrow : ∀ id row, (id, row) ∈ store.rows → ∃ config', m.view.config id = some config' ∧
      encodeChannel config'.1 = row := fun id row hrow =>
    Option.map_eq_some_iff.mp ((hget id).1.symm.trans ((Keyed.mem_rows_iff _).mp hrow))
  simp only [ChannelStore.loadAll, List.mem_map, List.mem_filter]
  constructor
  · rintro ⟨⟨id, row⟩, ⟨hmem, -⟩, rfl⟩
    obtain ⟨⟨config', rfl⟩, hconfig, rfl⟩ := hrow id row hmem
    have hback := (decodeChannel_encodeChannel config').mpr ((hget config'.id).2 _ hconfig)
    exact hconfig.trans (congrArg some (Subtype.ext hback.symm))
  · intro hconfig
    refine ⟨(config.id, encodeChannel config), ⟨?_, rfl⟩, ?_⟩
    · rw [Keyed.mem_rows_iff, (hget config.id).1, hconfig]
      rfl
    · exact (decodeChannel_encodeChannel config).mpr ((hget config.id).2 _ hconfig)

theorem nodup_loadAll (store : ChannelStore) : (store.loadAll.map (·.id)).Nodup := by
  have hids : store.loadAll.map (·.id) = (store.rows.filter (·.2.enabled)).map (·.1) := by
    rw [ChannelStore.loadAll, List.map_map]
    rfl
  rw [hids]
  exact store.nodup_keys.sublist (List.filter_sublist.map _)

theorem mem_ids_loadAll {store : ChannelStore} (h : m.view.Mirrored) (hstore : m.store = some store)
    (id : ℤ) : id ∈ store.loadAll.map (·.id) ↔ id ∈ m.channels := by
  rw [List.mem_map, ← isSome_config]
  constructor
  · rintro ⟨config, hconfig, rfl⟩
    rw [(mem_loadAll h hstore config).mp hconfig]
    rfl
  · intro hsome
    obtain ⟨⟨config, rfl⟩, hconfig⟩ := Option.isSome_iff_exists.mp hsome
    exact ⟨config, (mem_loadAll h hstore config).mpr hconfig, rfl⟩

/-- A new manager can load what is in the store. -/
theorem Sound.loadable (h : Sound m) {store : ChannelStore} (hstore : m.store = some store)
    (hasService : StreamingService → Bool) :
    Loadable (newManager hasService (some store)) store.loadAll where
  order := newManager_inOrder hasService (some store)
  counted _ hc := nomatch hc
  nodup := nodup_loadAll store
  absent _ _ hc := nomatch hc
  room := by
    have hlength := (nodup_loadAll store).length_le_of_subset fun id hid =>
      (mem_ids_loadAll h.mirrored hstore id).mp hid
    rw [List.length_map] at hlength
    exact (Nat.zero_add _).trans_le (hlength.trans h.room)

/-- **A restart** brings every channel back as its start leaves it, and no other. -/
theorem Sound.config_restart (h : Sound m) {store : ChannelStore} (hstore : m.store = some store)
    (hasService : StreamingService → Bool) (o : ℤ → StartOutcome) (id : ℤ) :
    (restart channelStore hasService o (some store)).view.config id =
      (m.view.config id).map (·.restarted (o id)) := by
  obtain ⟨hin, hout⟩ := config_foldl_loadChannel (o := o) (0, newManager hasService (some store))
    (h.loadable hstore hasService)
  cases hconfig : m.view.config id with
  | none =>
      refine (hout id ?_).trans rfl
      rw [mem_ids_loadAll h.mirrored hstore, ← isSome_config, hconfig]
      exact Bool.false_ne_true
  | some config =>
      obtain ⟨config, rfl⟩ := config
      exact hin config ((mem_loadAll h.mirrored hstore config).mpr hconfig)

theorem Sound.persisted (h : Sound m) : Persisted m := by
  obtain ⟨store, hstore, -⟩ := h.mirrored 0
  refine ⟨store, hstore, mem_ids_loadAll h.mirrored hstore, fun config hconfig => ?_,
    fun hasService o id => ?_⟩
  · have hview := (mem_loadAll h.mirrored hstore config).mp hconfig
    obtain ⟨e, he, hentry⟩ := Option.map_eq_some_iff.mp ((view_config m config.id).symm.trans hview)
    exact ⟨e, he, congrArg Subtype.val hentry⟩
  · have hrestored := h.config_restart hstore hasService o id
    rwa [view_config, view_config, Option.map_map] at hrestored

/-! ### Every step -/

theorem Sound.call {q : Call ChannelStore Bool} (h : Sound m)
    (order : InOrder (m.call channelStore q).2) (counted : Counted (m.call channelStore q).2)
    (mirrored : (m.call channelStore q).2.view.Mirrored) : Sound (m.call channelStore q).2 where
  order := order
  counted := counted
  room := (length_keys_le fun id hid => by
    by_contra hnot
    exact notMem_call q hnot hid).trans h.room
  mirrored := mirrored

theorem Sound.startChannel (h : Sound m) {o : StartOutcome}
    (hknown : ∀ e, m.channels.lookup id = some e → e.state ≠ .running → o.Known) :
    Sound (m.call channelStore (startChannel id o)).2 :=
  h.call (startChannel_inOrder h.order channelStore id o)
    (h.counted.call channelStore (startChannel_keeps id o)) (startChannel_mirrored h.mirrored hknown)

theorem Sound.stopChannel (h : Sound m) (id : ℤ) :
    Sound (m.call channelStore (stopChannel id)).2 := by
  refine h.call (stopChannel_inOrder h.order channelStore id)
    (h.counted.call channelStore (stopChannel_keeps id)) ?_
  rw [view_call_quiet (stopChannel_quiet id)]
  exact h.mirrored

theorem Sound.deleteChannel (h : Sound m) (id : ℤ) :
    Sound (m.call channelStore (deleteChannel id)).2 := by
  refine h.call (deleteChannel_inOrder h.order channelStore id)
    (deleteChannel_counted h.order h.counted id) ?_
  cases he : m.channels.lookup id with
  | none =>
      rw [view_deleteChannel_absent he]
      exact h.mirrored
  | some e =>
      rw [view_deleteChannel he]
      exact h.mirrored.drop id

theorem Sound.createChannel (h : Sound m) {config : ChannelConfig}
    (hstorable : m.channels.keys.length < kMaxChannels → Storable config) :
    Sound (m.createChannel channelStore config).2 := by
  have horder : InOrder (m.createChannel channelStore config).2 :=
    createChannel_inOrder h.order config
  have hcounted : Counted (m.createChannel channelStore config).2 :=
    createChannel_counted h.counted config
  rcases view_createChannel (m := m) channelStore config with hsame | ⟨hroom, hput⟩
  · refine ⟨horder, hcounted, (length_keys_le fun c hc => ?_).trans h.room, hsame ▸ h.mirrored⟩
    rw [← isSome_config, hsame, isSome_config] at hc
    exact hc
  · have hs := hstorable hroom
    have hlength : (m.createChannel channelStore config).2.channels.keys.length ≤
        (m.nextChannelId :: m.channels.keys).length := by
      refine length_keys_le fun c hc => ?_
      by_cases e : c = m.nextChannelId
      · exact e ▸ List.mem_cons_self
      · rw [← isSome_config, hput, put_config_ne _ e, isSome_config] at hc
        exact List.mem_cons_of_mem _ hc
    refine ⟨horder, hcounted, hlength.trans hroom, ?_⟩
    rw [hput]
    exact h.mirrored.put ⟨hs.codec, hs.name, hs.rtspUrl, hs.aiModelName, hs.aiBackend, hs.recordPath⟩

/-- A load finds every channel there already. -/
theorem Sound.loadChannels (h : Sound m) (o : ℤ → StartOutcome) :
    (m.loadChannels channelStore o).2 = m := by
  obtain ⟨store, hstore, -⟩ := h.mirrored 0
  have hloop : store.loadAll.foldl (Manager.loadChannel channelStore o) (0, m) = (0, m) := by
    refine List.foldlRecOn (motive := fun acc => acc = (0, m)) _ _ rfl ?_
    rintro _ rfl config hconfig
    refine loadChannel_present ?_ o
    exact (mem_ids_loadAll h.mirrored hstore config.id).mp (List.mem_map_of_mem hconfig)
  have hrows : m.store = some store := hstore
  rw [Manager.loadChannels, hrows]
  exact congrArg Prod.snd hloop

theorem Sound.operation (h : Sound m) {op : Operation} (hs : op.Saved m) :
    Sound (op.apply channelStore m) := by
  cases op with
  | create config => exact h.createChannel hs
  | start id o => exact h.startChannel hs
  | stop id => exact h.stopChannel id
  | edit id newConfig o =>
      exact h.call (editChannel_inOrder h.order channelStore id newConfig o)
        (h.counted.call channelStore (editChannel_keeps id newConfig o))
        (editChannel_mirrored h.order h.counted h.mirrored hs)
  | delete id => exact h.deleteChannel id
  | startAll order o =>
      exact List.foldlRecOn (motive := Sound) _ _ h fun _ hm id hid =>
        hm.startChannel fun _ _ _ => hs id hid
  | stopAll order => exact foldl_of_step (P := Sound) (fun _ id hm => hm.stopChannel id) _ h
  | load o =>
      rw [Operation.apply, h.loadChannels]
      exact h

/-! ### Overlays -/

/-- A change of an entry that keeps its pipeline and its state. -/
theorem modifyEntry_inOrder {δ : Type*} {m : Manager δ} (h : InOrder m)
    {f : ChannelEntry id → ChannelEntry id} (hp : ∀ e, (f e).pipeline = e.pipeline)
    (hs : ∀ e, (f e).state = e.state) : InOrder (m.modifyEntry id f) where
  locals := h.locals
  channel c := by
    by_cases hc : c = id
    · subst hc
      rcases h.channel c with habs | ⟨e, p, hholds, hrun⟩
      · refine .inl ⟨?_, habs.pipeline, habs.registered, habs.counted⟩
        rw [Manager.lookup_modifyEntry, habs.entry, Option.map_none]
      · exact .inr ⟨f e, p, hholds.modifyEntry (hp e), hrun.trans (by rw [hs])⟩
    · exact (h.channel c).congr (Manager.lookup_modifyEntry_ne hc) rfl rfl rfl rfl .inr
  fresh c hc := h.fresh c (Manager.mem_modifyEntry.mp hc)

theorem Sound.updateOverlay (h : Sound m) {overlay : OverlayConfig}
    (hsame : ∀ e, m.channels.lookup id = some e → overlay = e.config.1.overlay) :
    Sound (m.updateOverlayConfig id overlay).2 := by
  have hmem : ∀ c, c ∈ (m.updateOverlayConfig id overlay).2.channels ↔ c ∈ m.channels := fun c =>
    Manager.mem_modifyEntry
  have hview : (m.updateOverlayConfig id overlay).2.view = m.view := by
    refine View.ext rfl (funext fun c => ?_)
    rw [view_config, view_config, Manager.updateOverlayConfig]
    by_cases hc : c = id
    · subst hc
      cases he : m.channels.lookup c with
      | none => rw [Manager.lookup_modifyEntry, he]; rfl
      | some e =>
          rw [Manager.lookup_modifyEntry, he, hsame e he]
          rfl
    · rw [Manager.lookup_modifyEntry_ne hc]
  refine ⟨modifyEntry_inOrder h.order (fun _ => rfl) fun _ => rfl,
    fun c hc => h.counted c ((hmem c).mp hc),
    (length_keys_le fun c hc => (hmem c).mp hc).trans h.room, ?_⟩
  rw [hview]
  exact h.mirrored

/-! ### Runs -/

theorem Sound.restart (h : Sound m) (hasService : StreamingService → Bool) {o : ℤ → StartOutcome}
    (hknown : ∀ id ∈ m.channels, (o id).Known) :
    Sound (Channel.restart channelStore hasService o m.store) := by
  obtain ⟨store, hstore, -⟩ := h.mirrored 0
  have hrows : m.store = some store := hstore
  have hnew := newManager_inOrder hasService (some store)
  have hconfig := h.config_restart hrows hasService o
  have hin := mem_loadAll h.mirrored hrows
  have hids := mem_ids_loadAll h.mirrored hrows
  rw [hrows]
  refine ⟨apply_inOrder hnew (.load o), apply_counted hnew (fun _ hc => nomatch hc) (.load o),
    (length_keys_le fun c hc => ?_).trans h.room, ?_⟩
  · rw [← isSome_config, hconfig, Option.isSome_map, isSome_config] at hc
    exact hc
  · refine mirrored_foldl_loadChannel (0, newManager hasService (some store))
      (h.loadable hrows hasService) (fun config hmem => ?_) (fun config hmem => ?_) fun c hc => ?_
    · exact hknown _ ((hids _).mp (List.mem_map_of_mem hmem))
    · have hstores := h.mirrored config.id
      rw [(hin config).mp hmem] at hstores
      exact hstores.of_store_eq hstore.symm
    · have hnone : m.view.config c = none := by
        rw [← Option.not_isSome_iff_eq_none, isSome_config, ← hids]
        exact hc
      have hstores := h.mirrored c
      rw [hnone] at hstores
      exact hstores.of_store_eq hstore.symm

/-- **A step that persists** keeps all that. -/
theorem Sound.apply (h : Sound m) {op : ChannelOp} (hs : op.Saved m) : Sound (op.apply m) := by
  cases op with
  | operation op => exact h.operation hs
  | updateOverlay id overlay => exact h.updateOverlay hs
  | restart hasService o => exact h.restart hasService hs

/-- A manager with an empty store. -/
def firstStart (hasService : StreamingService → Bool) : Manager ChannelStore :=
  newManager hasService (some .empty)

theorem firstStart_sound (hasService : StreamingService → Bool) : Sound (firstStart hasService) where
  order := newManager_inOrder hasService _
  counted _ hc := nomatch hc
  room := Nat.zero_le _
  mirrored _ := ⟨.empty, rfl, rfl, fun _ h => nomatch h⟩

/-- **The store mirrors the memory** along steps that change no overlay and save what a row can
hold: after each, the channels in the store are those in memory with their configurations, and a
restart brings back exactly these. -/
theorem persisted_of_saved (hasService : StreamingService → Bool) (ops : List ChannelOp)
    (h : EveryStep ChannelOp.apply ChannelOp.Saved (firstStart hasService) ops) :
    Along ChannelOp.apply Persisted (firstStart hasService) ops :=
  (along_of_everyStep (P := Sound) (fun _ _ hm hs => hm.apply hs) (firstStart_sound hasService)
    h).mono fun _ hm => hm.persisted

def lobbyCamera : ChannelConfig := { rtspUrl := "rtsp://lobby", codec := .h264 }

theorem lobbyCamera_storable : Storable lobbyCamera :=
  ⟨by decide, by decide +kernel, by decide +kernel, by decide +kernel, by decide +kernel,
    by decide +kernel⟩

/-- A channel is made, started and found again. -/
theorem persisted_lobby :
    Along ChannelOp.apply Persisted (firstStart fun _ => true)
      [.operation (.create lobbyCamera),
        .operation (.start 1 { info := { codec := .h265, width := 1920, height := 1080 } }),
        .restart (fun _ => true) fun _ => {}] :=
  persisted_of_saved _ _ ⟨fun _ => lobbyCamera_storable, fun _ _ _ _ _ _ _ => by decide,
    fun _ _ _ _ hwidth => absurd hwidth (lt_irrefl 0), trivial⟩

/-- An overlay that is switched off is back on after a restart. -/
theorem persisted_refuted :
    ¬ ∀ (hasService : StreamingService → Bool) (ops : List ChannelOp),
      Along ChannelOp.apply Persisted (firstStart hasService) ops := by
  intro h
  obtain ⟨store, hstore, hpersisted⟩ := (h (fun _ => true)
    [.operation (.create lobbyCamera), .updateOverlay 1 { enabled := false }]).last
  obtain rfl := Option.some.inj hstore
  have hoverlay := congrArg (Option.map (·.1.overlay.enabled))
    (hpersisted.restored (fun _ => true) (fun _ => { starts := false }) 1)
  exact absurd hoverlay (by decide +kernel)

end LoongNvr.Channel
