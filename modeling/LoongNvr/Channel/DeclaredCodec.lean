import LoongNvr.Channel.EditCapacity
import LoongNvr.Channel.OutputParams

/-!
# Channel — DeclaredCodec

What the RTSP server and the WebSocket media service are told of a channel, against the encoder of
its output stage.  The encoder is made with the configuration the pipeline was built with; a start
takes over what the stream turned out to be, and registers that.

* `Declared`: of each channel that runs, the services are told what its encoder encodes.
* `declared_of_fits`: so it stays as long as every start that goes well finds a stream like the one
  the pipeline was built for.
-/

namespace LoongNvr.Channel
open LoongNvr.Core Support Program
open LoongNvr.Codec (EncoderConfig)
open LoongNvr.Pipeline (kMaxChannels)

variable {δ : Type*} {lib : JsonLibrary} {db : StoreCalls δ} {m m' : Manager δ} {id c : ℤ}
variable {e : ChannelEntry id} {p : ChannelPipeline} {reg : StreamingService → Bool}
variable {config built : ChannelConfig} {info : StreamInfo} {o : StartOutcome}

/-! ### What the services are told -/

/-- The service is told codec and frame rate. -/
@[simp] def StreamingService.Declares : StreamingService → Prop
  | .rtsp | .ws => True
  | .flv | .hls => False

/-- What a service is told is what the encoder encodes; what is not known stands for the default. -/
structure Registration.Matches (r : Registration) (enc : EncoderConfig) : Prop where
  codec : encodedCodec r.codec = enc.codec
  framerate : encodedFramerate r.framerate = enc.framerate

/-- Of each channel that runs, the services are told what the encoder of its pipeline's output stage
encodes, whatever the stage has been sent. -/
def Declared (lib : JsonLibrary) (m : Manager δ) : Prop :=
  ∀ id e, m.channels.lookup id = some e → e.state = .running →
    ∀ svc : StreamingService, svc.Declares → m.hasService svc →
      ∃ p r, m.pipelines id e.pipeline = some p ∧ p.running ∧ m.registered svc id = some r ∧
        (IntFields p.config → ∀ s, IsOutputStage lib p.config s →
          ∀ enc ∈ s.encoder, r.Matches enc.config)

/-- The stream, as far as it is known, is like the one the pipeline was built for. -/
def Fits (built : ChannelConfig) (info : StreamInfo) : Prop :=
  info.width > 0 → info.height > 0 →
    encodedCodec info.codec = encodedCodec built.codec ∧
      (info.framerate > 0 → info.framerate = encodedFramerate built.framerate)

/-- If the channel's pipeline starts, its stream is like the one it was built for. -/
def StartFits (m : Manager δ) (id : ℤ) (o : StartOutcome) : Prop :=
  ∀ e, m.channels.lookup id = some e → e.state ≠ .running → o.initializes → o.starts →
    ∀ p, m.pipelines id e.pipeline = some p → Fits p.config o.info

/-- The same of a channel that is built with the configuration and then started, where there is
room. -/
def BuildFits (m : Manager δ) (built : ChannelConfig) (o : StartOutcome) : Prop :=
  m.channelResources.keys.length < kMaxChannels → o.initializes → o.starts → Fits built o.info

/-- Each start of the operation finds a stream like the one the pipeline was built for. -/
def Operation.Fits (db : StoreCalls δ) (m : Manager δ) : Operation → Prop
  | .create _ | .stop _ | .delete _ | .stopAll _ => True
  | .start id o => StartFits m id o
  | .edit id newConfig o =>
      ∀ e, m.channels.lookup id = some e → e.state = .running → BuildFits m newConfig o
  | .startAll order o =>
      EveryStep (fun m id => (m.call db (startChannel id (o id))).2)
        (fun m id => StartFits m id (o id)) m (m.idsWith order false)
  | .load o =>
      ∀ rows, m.store = some rows →
        EveryStep (Manager.loadChannel db o)
          (fun acc config => config.id ∉ acc.2.channels → BuildFits acc.2 config (o config.id))
          (0, m) (db.loadAll rows)

/-! ### What is known of a channel -/

/-- Encoders for channels with these configurations have one codec and one frame rate. -/
structure SameEncoding (config built : ChannelConfig) : Prop where
  codec : encodedCodec config.codec = encodedCodec built.codec
  framerate : encodedFramerate config.framerate = encodedFramerate built.framerate

theorem SameEncoding.refl (config : ChannelConfig) : SameEncoding config config := ⟨rfl, rfl⟩

theorem SameEncoding.started {config : ConfigOf id} (h : SameEncoding config.1 built)
    (hfits : Fits built info) : SameEncoding (config.started info).1 built := by
  unfold ConfigOf.started
  split
  · next hsize =>
      obtain ⟨hcodec, hframerate⟩ := hfits hsize.1 hsize.2
      refine ⟨hcodec, ?_⟩
      by_cases hpos : info.framerate > 0
      · have hsame : encodedFramerate info.framerate = info.framerate := if_pos hpos
        simp only [ConfigOf.detect, if_pos hpos]
        exact hsame.trans (hframerate hpos)
      · simp only [ConfigOf.detect, if_neg hpos]
        exact h.framerate
  · exact h

/-- The channel is configured like its pipeline, and while it runs the services know the
configuration. -/
def DeclaredAt (m : Manager δ) (id : ℤ) : Prop :=
  ∀ e p reg, Holds m id e p reg → SameEncoding e.config.1 p.config ∧
    (e.state = .running → ∀ svc, m.hasService svc →
      m.registered svc id = some (svc.registration e.config.1))

theorem Holds.unique {e' : ChannelEntry id} {p' : ChannelPipeline} {reg' : StreamingService → Bool}
    (h : Holds m id e p reg) (h' : Holds m id e' p' reg') : e = e' ∧ p = p' := by
  obtain rfl : e = e' := Option.some.inj (h.entry.symm.trans h'.entry)
  have hp := (h.pipeline e.pipeline).symm.trans (h'.pipeline e.pipeline)
  rw [if_pos rfl, if_pos rfl] at hp
  exact ⟨rfl, Option.some.inj hp⟩

theorem Holds.declaredAt (h : Holds m id e p reg) (hsame : SameEncoding e.config.1 p.config)
    (hregistered : e.state = .running → ∀ svc, m.hasService svc →
      m.registered svc id = some (svc.registration e.config.1)) : DeclaredAt m id := by
  intro e' p' reg' h'
  obtain ⟨rfl, rfl⟩ := h.unique h'
  exact ⟨hsame, hregistered⟩

/-- Of a channel that does not run, the services need know nothing. -/
theorem Holds.declaredAt_idle (h : Holds m id e p reg) (hsame : SameEncoding e.config.1 p.config)
    (hstate : e.state ≠ .running) : DeclaredAt m id :=
  h.declaredAt hsame fun hrun => absurd hrun hstate

theorem declaredAt_of_notMem (h : id ∉ m.channels) : DeclaredAt m id :=
  fun _ _ _ hholds => absurd hholds.mem h

/-- What is known is read off these parts. -/
theorem DeclaredAt.congr (h : DeclaredAt m c) (hc : m'.channels.lookup c = m.channels.lookup c)
    (hp : m'.pipelines = m.pipelines) (hr : m'.registered = m.registered)
    (hs : m'.hasService = m.hasService) (hb : m'.built = m.built) : DeclaredAt m' c := by
  intro e p reg hholds
  rw [hs, hr]
  refine h e p reg ⟨hc ▸ hholds.entry, hp ▸ hholds.pipeline, ?_, hb ▸ hholds.built⟩
  have hreg := hholds.registered
  rwa [hs, hr] at hreg

/-! ### A start -/

theorem registered_registerAll {svc : StreamingService} (hsvc : m.hasService svc)
    (config : ConfigOf id) :
    (m.call db (registerWithStreamingServices config)).2.registered svc id =
      some (svc.registration config.1) := by
  cases svc <;> simp [Manager.call, registerWithStreamingServices,
    Manager.registered_exec_register, hsvc]

/-- **A start tells** the services the configuration it has taken over. -/
theorem Holds.registered_announce (h : Holds m id e p reg) (db : StoreCalls δ) (info : StreamInfo)
    {svc : StreamingService} (hsvc : m.hasService svc) :
    (m.call db (Channel.announce id e.config info)).2.registered svc id =
      some (svc.registration (e.config.started info).1) := by
  have htaken : (m.call db (takeStreamInfo id e.config info)).1 = e.config.started info := by
    unfold takeStreamInfo ConfigOf.started
    split
    · rw [Manager.call, act, run_step, run_done, h.entry]
      rfl
    · rfl
  rw [Manager.call] at htaken
  have hs : ((takeStreamInfo id e.config info).run (Manager.exec db 0) m).2.hasService svc :=
    (congrFun (hasService_call _) svc).trans hsvc
  simp only [Channel.announce, Manager.call, bind_eq, run_bind, pure_eq, run_done, htaken,
    run_acts, List.foldl_cons, List.foldl_nil]
  rw [Manager.registered_exec_of_ne (by simp) (by simp)]
  exact registered_registerAll hs _

theorem registered_dropLocals {svc : StreamingService} :
    (m.exec db 0 .dropLocals).registered svc c = m.registered svc c :=
  Manager.registered_exec_of_ne (by simp) (by simp)

theorem startChannel_declared (h : Steady m id) (hd : DeclaredAt m id) (hfits : StartFits m id o) :
    DeclaredAt (m.call db (startChannel id o)).2 id := by
  rcases h with habs | ⟨e, p, hholds, hrun⟩
  · exact declaredAt_of_notMem (notMem_call _ (AList.lookup_eq_none.mp habs.entry))
  obtain ⟨hsame, hregistered⟩ := hd e p _ hholds
  by_cases hstate : e.state = .running
  · -- the channel is found, and that is all
    have hcall : (m.call db (startChannel id o)).2 =
        (m.exec db 0 (.startFind id)).exec db 0 .dropLocals := by
      rw [startChannel, call_withLocals]
      simp only [Manager.call, bind_eq, pure_eq, run_act_bind]
      rw [hholds.entry]
      dsimp only
      rw [if_pos hstate, run_done]
    have hidle := (hholds.idle db (a := .startFind id) (by simp)).idle db (a := .dropLocals)
      (by simp)
    rw [hcall]
    refine hidle.declaredAt hsame fun hrun svc hsvc => ?_
    rw [Manager.hasService_exec, Manager.hasService_exec] at hsvc
    rw [registered_dropLocals, Manager.registered_exec_of_ne (by simp) (by simp)]
    exact hregistered hrun svc hsvc
  have hp : p.running = false := by simpa [hstate] using hrun
  have hidle : Holds m id e p fun _ => false := hp ▸ hholds
  obtain ⟨-, e', p', hstarted, -, hconfig, -, hstate', hconfig'⟩ :=
    hidle.startChannel hp hstate db o
  by_cases hok : o.initializes = true ∧ o.starts = true
  · rw [Bool.and_eq_true_iff.mpr hok, if_pos rfl] at hconfig'
    have hpipe := (hholds.pipeline e.pipeline).trans (if_pos rfl)
    have hfit := hfits e hholds.entry hstate hok.1 hok.2 p hpipe
    refine hstarted.declaredAt ?_ fun _ svc hsvc => ?_
    · rw [hconfig', hconfig]
      exact hsame.started hfit
    · obtain ⟨m', p'', hfound, -, -, hservice, heq⟩ :=
        hidle.call_startChannel hstate db hok.1 hok.2
      rw [hasService_call, ← hservice] at hsvc
      rw [heq, call_withLocals, registered_dropLocals, hconfig']
      exact hfound.registered_announce db o.info hsvc
  · have hfalse : (o.initializes && o.starts) = false :=
      Bool.eq_false_iff.mpr fun hand => hok (Bool.and_eq_true_iff.mp hand)
    rw [hfalse, if_neg Bool.false_ne_true] at hstate' hconfig'
    refine hstarted.declaredAt_idle ?_ (by rw [hstate']; simp)
    rw [hconfig', hconfig]
    exact hsame

/-! ### The other calls -/

/-- Everything known of every channel. -/
structure AllDeclared (m : Manager δ) : Prop where
  order : InOrder m
  channel : ∀ id, DeclaredAt m id

theorem DeclaredAt.exec_ofChannel {a : Action} (h : Steady m c) (hd : DeclaredAt m c)
    (ha : a.OfChannel id) (hne : c ≠ id) : DeclaredAt (m.exec db 0 a) c := by
  rcases h with habs | ⟨e, p, hholds, -⟩
  · refine declaredAt_of_notMem fun hmem => ?_
    exact AList.lookup_eq_none.mp habs.entry (Manager.mem_exec.mp hmem).1
  · obtain ⟨hsame, hregistered⟩ := hd e p _ hholds
    have hafter : Holds (m.exec db 0 a) c e p _ := hholds.exec_ofChannel ha hne
    refine hafter.declaredAt hsame fun hrun svc hsvc => ?_
    rw [Manager.hasService_exec] at hsvc
    rw [Manager.registered_exec_ofChannel ha hne]
    exact hregistered hrun svc hsvc

/-- **One call** about a channel. -/
theorem AllDeclared.call {q : Call δ Bool} (h : AllDeclared m) (hq : q.All (Action.OfChannel id))
    (order : InOrder (m.call db q).2) (hself : DeclaredAt (m.call db q).2 id) :
    AllDeclared (m.call db q).2 where
  order := order
  channel c := by
    by_cases e : c = id
    · exact e ▸ hself
    · refine (hq.run (J := fun m => Steady m c ∧ DeclaredAt m c) (fun m a ha hs => ?_)
        ⟨h.order.channel c, h.channel c⟩).2
      exact ⟨hs.1.exec_ofChannel ha e, hs.2.exec_ofChannel hs.1 ha e⟩

theorem AllDeclared.startChannel (h : AllDeclared m) (hfits : StartFits m id o) :
    AllDeclared (m.call db (startChannel id o)).2 :=
  h.call (ofChannel_of_keeps (startChannel_keeps id o)) (startChannel_inOrder h.order db id o)
    (startChannel_declared (h.order.channel id) (h.channel id) hfits)

theorem AllDeclared.stopChannel (h : AllDeclared m) (id : ℤ) :
    AllDeclared (m.call db (stopChannel id)).2 := by
  refine h.call (ofChannel_of_keeps (stopChannel_keeps id)) (stopChannel_inOrder h.order db id) ?_
  rcases h.order.channel id with habs | ⟨e, p, hholds, -⟩
  · exact declaredAt_of_notMem (notMem_call _ (AList.lookup_eq_none.mp habs.entry))
  obtain ⟨hsame, -⟩ := h.channel id e p _ hholds
  by_cases hstate : e.state = .running
  · refine (hholds.stopChannel db hstate).declaredAt_idle ?_ nofun
    rw [p.config_stop]
    exact hsame
  · exact (hholds.stopChannel_idle db hstate).declaredAt_idle hsame hstate

theorem AllDeclared.deleteChannel (h : AllDeclared m) (id : ℤ) :
    AllDeclared (m.call db (deleteChannel id)).2 := by
  refine h.call (deleteChannel_ofChannel id) (deleteChannel_inOrder h.order db id) ?_
  have habs : Absent (m.call db (Channel.deleteChannel id)).2 id :=
    deleteChannel_absent h.order.locals (h.order.channel id)
  exact declaredAt_of_notMem (AList.lookup_eq_none.mp habs.entry)

/-- A new pipeline that is to be started. -/
theorem Holds.startFits (h : Holds m id e p reg)
    (hfits : o.initializes → o.starts → Fits p.config o.info) : StartFits m id o := by
  intro e' he' _ hi hs p' hp'
  obtain rfl : e = e' := Option.some.inj (h.entry.symm.trans he')
  obtain rfl : p = p' := by
    rw [h.pipeline, if_pos rfl] at hp'
    exact Option.some.inj hp'
  exact hfits hi hs

/-- The end of a call. -/
theorem DeclaredAt.dropLocals (h : Steady m id) (hd : DeclaredAt m id) (db : StoreCalls δ) :
    DeclaredAt (m.exec db 0 .dropLocals) id := by
  rcases h with habs | ⟨e, p, hholds, -⟩
  · exact declaredAt_of_notMem (AList.lookup_eq_none.mp (habs.dropLocals db).entry)
  · obtain ⟨hsame, hregistered⟩ := hd e p _ hholds
    have hidle := hholds.idle db (a := .dropLocals) (by simp)
    refine hidle.declaredAt hsame fun hrun svc hsvc => ?_
    rw [Manager.hasService_exec] at hsvc
    exact registered_dropLocals.trans (hregistered hrun svc hsvc)

/-- The second half of an edit, of a channel that does not run. -/
theorem rebuild_declared (h : Holds m id e p fun _ => false) (hl : m.locals = [])
    (hsame : SameEncoding e.config.1 p.config) (config : ConfigOf id) {restart : Bool}
    (hfits : restart → BuildFits m config.1 o) :
    DeclaredAt (m.call db (rebuild id config restart o)).2 id := by
  by_cases hfull : m.channelResources.keys.length ≥ kMaxChannels
  · exact (h.rebuild_full db hfull config restart o).2.declaredAt_idle hsame nofun
  · have hinstalled := h.installed db hl config
    have hd := hinstalled.declaredAt_idle (.refl config.1) nofun
    have hsteady : Steady (installed db m config) id :=
      .inr (hinstalled.agrees (fun _ => rfl) (by simp))
    rw [call_rebuild_room db h.mem hfull]
    cases restart with
    | false => exact hd
    | true =>
        refine startChannel_declared hsteady hd (hinstalled.startFits ?_)
        exact hfits rfl (Nat.lt_of_not_ge hfull)

theorem editChannel_declared (h : InOrder m) (hd : DeclaredAt m id) {newConfig : ChannelConfig}
    (hfits : ∀ e, m.channels.lookup id = some e → e.state = .running → BuildFits m newConfig o) :
    DeclaredAt (m.call db (editChannel id newConfig o)).2 id := by
  rcases h.channel id with habs | ⟨e, p, hholds, hrun⟩
  · exact declaredAt_of_notMem (notMem_call _ (AList.lookup_eq_none.mp habs.entry))
  obtain ⟨hsame, -⟩ := hd e p _ hholds
  obtain ⟨state, p', hp', hconfig, -, -, hedited⟩ := hholds.edited hrun db
  have hlocals := edited_locals h.locals db e
  have hsteady : Steady ((edited db m e).call db
      (rebuild id (newConfig.withId id) (e.state = .running) o)).2 id :=
    rebuild_steady hedited hlocals hp' _ _ o
  rw [call_editChannel db hholds.entry]
  refine DeclaredAt.dropLocals hsteady ?_ db
  refine rebuild_declared hedited hlocals (hconfig ▸ hsame) _ fun hrestart => ?_
  rw [BuildFits, edited_channelResources]
  exact hfits e hholds.entry (of_decide_eq_true hrestart)

theorem AllDeclared.editChannel (h : AllDeclared m) {newConfig : ChannelConfig}
    (hfits : ∀ e, m.channels.lookup id = some e → e.state = .running → BuildFits m newConfig o) :
    AllDeclared (m.call db (editChannel id newConfig o)).2 :=
  h.call (ofChannel_of_keeps (editChannel_keeps id newConfig o))
    (editChannel_inOrder h.order db id newConfig o)
    (editChannel_declared h.order (h.channel id) hfits)

/-! ### New channels -/

/-- A channel is added where there is room, with its configuration. -/
theorem addChannel_declared (h : AllDeclared m) (hid : id ∉ m.channels) {config : ConfigOf id}
    (hm' : m.addChannel db id config = some m') :
    (∀ c, DeclaredAt m' c) ∧ m.channelResources.keys.length < kMaxChannels ∧
      ∃ e p, Holds m' id e p (fun _ => false) ∧ p.config = config.1 := by
  rw [Manager.addChannel, call_buildPipeline] at hm'
  by_cases hmax : m.channelResources.keys.length ≥ kMaxChannels
  · rw [if_pos hmax] at hm'
    cases hm'
  rw [if_neg hmax] at hm'
  have hcount : ∀ c, Steady (m.exec db 0 .countResources) c := fun c =>
    (h.order.channel c).exec_ofChannel (a := .countResources) trivial (lt_add_one c).ne
  have hcounted : ∀ c, DeclaredAt (m.exec db 0 .countResources) c := fun c =>
    (h.channel c).exec_ofChannel (h.order.channel c) (a := .countResources) trivial
      (lt_add_one c).ne
  have hm' := (Option.some.inj hm').symm
  have habs : Absent (m.exec db 0 .countResources) id := by
    rcases hcount id with habs | ⟨e, p, hholds, -⟩
    · exact habs
    · exact absurd (AList.lookup_isSome.mp (Option.isSome_of_eq_some hholds.entry)) hid
  generalize m.channelResources.keys.length = k at hm' hmax
  have hnew := habs.holds_add db config k
  refine ⟨fun c => ?_, Nat.lt_of_not_ge hmax, ?_⟩
  · subst hm'
    by_cases e : c = id
    · subst e
      exact hnew.declaredAt_idle (.refl config.1) (by simp)
    · have hbuild : DeclaredAt ((m.exec db 0 .countResources).exec db 0 (.build id config k)) c :=
        (hcounted c).exec_ofChannel (hcount c) rfl e
      exact hbuild.congr (AList.lookup_insert_ne e) rfl rfl rfl rfl
  · subst hm'
    exact ⟨_, _, hnew, rfl⟩

theorem DeclaredAt.onChannelAdded (h : DeclaredAt m c) (id : ℤ) :
    DeclaredAt (m.onChannelAdded id) c := by
  unfold Manager.onChannelAdded
  split
  · exact h
  · exact h.congr rfl rfl rfl rfl rfl

theorem Holds.onChannelAdded (h : Holds m id e p reg) (c : ℤ) :
    Holds (m.onChannelAdded c) id e p reg := by
  unfold Manager.onChannelAdded
  split
  · exact h
  · exact ⟨h.entry, h.pipeline, h.registered, h.built⟩

theorem AllDeclared.createChannel (h : AllDeclared m) (config : ChannelConfig) :
    AllDeclared (m.createChannel db config).2 := by
  refine ⟨createChannel_inOrder h.order config, fun c => ?_⟩
  have hid : m.nextChannelId ∉ m.channels := fun hmem => lt_irrefl _ (h.order.fresh _ hmem)
  have hnext : AllDeclared { m with nextChannelId := m.nextChannelId + 1 } :=
    ⟨⟨h.order.locals, fun c => (h.order.channel c).congr rfl rfl rfl rfl rfl .inr, fun c hc =>
      (h.order.fresh c hc).trans (lt_add_one _)⟩, fun c => (h.channel c).congr rfl rfl rfl rfl rfl⟩
  rcases Manager.createChannel_cases db m config with e | ⟨-, e | ⟨m', hm', e⟩⟩ <;> rw [e]
  · exact h.channel c
  · exact hnext.channel c
  · have hadded := (addChannel_declared hnext hid hm').1 c
    exact (hadded.onChannelAdded _).congr rfl rfl rfl rfl rfl

theorem AllDeclared.loadChannel {acc : ℕ × Manager δ} (h : AllDeclared acc.2)
    (o : ℤ → StartOutcome) (config : ChannelConfig)
    (hfits : config.id ∉ acc.2.channels → BuildFits acc.2 config (o config.id)) :
    AllDeclared (Manager.loadChannel db o acc config).2 := by
  rcases Manager.loadChannel_cases db o acc config with e | ⟨hid, m', hm', e⟩ <;> rw [e]
  · exact h
  · obtain ⟨hdeclared, hroom, entry, p, hholds, hconfig⟩ := addChannel_declared h hid hm'
    obtain ⟨-, -, heq, -⟩ := addChannel_spec h.order hid hm'
    obtain ⟨horder, hmem⟩ := addChannel_inOrder h.order hid hm'
      (max m'.nextChannelId (config.id + 1)) (by simp) (heq ▸ le_max_left _ _)
    have hnext : ∀ c, DeclaredAt
        { m' with nextChannelId := max m'.nextChannelId (config.id + 1) } c := fun c =>
      (hdeclared c).congr rfl rfl rfl rfl rfl
    have hfound : Holds { m' with nextChannelId := max m'.nextChannelId (config.id + 1) }
        config.id entry p fun _ => false :=
      ⟨hholds.entry, hholds.pipeline, hholds.registered, hholds.built⟩
    refine AllDeclared.startChannel
      ⟨onChannelAdded_inOrder horder hmem, fun c => (hnext c).onChannelAdded _⟩
      ((hfound.onChannelAdded config.id).startFits ?_)
    rw [hconfig]
    exact hfits hid hroom

/-! ### Runs -/

/-- **Every operation** whose starts find such streams. -/
theorem AllDeclared.apply (h : AllDeclared m) {op : Operation} (hfits : op.Fits db m) :
    AllDeclared (op.apply db m) := by
  cases op with
  | create config => exact h.createChannel config
  | start id o => exact h.startChannel hfits
  | stop id => exact h.stopChannel id
  | edit id newConfig o => exact h.editChannel hfits
  | delete id => exact h.deleteChannel id
  | startAll order o => exact foldl_of_everyStep (fun m id hm hs => hm.startChannel hs) h hfits
  | stopAll order =>
      exact foldl_of_step (P := AllDeclared) (fun m id hm => hm.stopChannel id) _ h
  | load o =>
      simp only [Operation.apply, Manager.loadChannels]
      split
      · exact h
      · next rows hrows =>
          exact foldl_of_everyStep (P := fun acc : ℕ × Manager δ => AllDeclared acc.2)
            (fun acc config hacc hs => hacc.loadChannel o config hs) h (hfits rows hrows)

theorem AllDeclared.declared (h : AllDeclared m) (hlib : lib.Lawful) : Declared lib m := by
  intro id e he hstate svc hdeclares hsvc
  obtain ⟨p, hholds, hrun⟩ := h.order.holds he
  obtain ⟨hsame, hregistered⟩ := h.channel id e p _ hholds
  refine ⟨p, svc.registration e.config.1, (hholds.pipeline _).trans (if_pos rfl), hrun.mpr hstate,
    hregistered hstate svc hsvc, fun hint s hs enc henc => ?_⟩
  have hencodes := (hs.encodes hlib hint).encoder enc henc
  have hcodec := hsame.codec.trans hencodes.codec.symm
  have hframerate := hsame.framerate.trans hencodes.framerate.symm
  cases svc with
  | flv | hls => exact hdeclares.elim
  | rtsp | ws => exact ⟨hcodec, hframerate⟩

theorem newManager_declared (hasService : StreamingService → Bool) (store : Option δ) :
    AllDeclared (newManager hasService store) where
  order := newManager_inOrder hasService store
  channel _ := declaredAt_of_notMem fun hmem => nomatch hmem

theorem hasService_addChannel {config : ConfigOf id} (hm' : m.addChannel db id config = some m') :
    m'.hasService = m.hasService := by
  have hs : (m.call db (buildPipeline id config)).2.hasService = m.hasService :=
    hasService_call (buildPipeline id config)
  rw [Manager.addChannel] at hm'
  split at hm'
  · cases hm'
  · next hbuild =>
      rw [hbuild] at hs
      cases hm'
      exact hs

theorem hasService_onChannelAdded : (m.onChannelAdded id).hasService = m.hasService := by
  unfold Manager.onChannelAdded
  split <;> rfl

theorem hasService_createChannel : (m.createChannel db config).2.hasService = m.hasService := by
  rcases Manager.createChannel_cases db m config with e | ⟨-, e | ⟨m', hm', e⟩⟩ <;> rw [e]
  have hadded := hasService_addChannel hm'
  exact hasService_onChannelAdded.trans hadded

theorem hasService_loadChannel {acc : ℕ × Manager δ} {o : ℤ → StartOutcome} :
    (Manager.loadChannel db o acc config).2.hasService = acc.2.hasService := by
  rcases Manager.loadChannel_cases db o acc config with e | ⟨hid, m', hm', e⟩ <;> rw [e]
  have hadded := hasService_addChannel hm'
  exact (hasService_call _).trans (hasService_onChannelAdded.trans hadded)

theorem hasService_apply (op : Operation) : (op.apply db m).hasService = m.hasService := by
  cases op with
  | create config => exact hasService_createChannel
  | start id o | stop id | edit id newConfig o | delete id => exact hasService_call _
  | startAll order o =>
      exact foldl_of_step (P := fun m' : Manager δ => m'.hasService = m.hasService)
        (fun _ _ hm => (hasService_call _).trans hm) _ rfl
  | stopAll order =>
      exact foldl_of_step (P := fun m' : Manager δ => m'.hasService = m.hasService)
        (fun _ _ hm => (hasService_call _).trans hm) _ rfl
  | load o =>
      simp only [Operation.apply, Manager.loadChannels]
      split
      · rfl
      · exact foldl_of_step (P := fun acc : ℕ × Manager δ => acc.2.hasService = m.hasService)
          (fun _ _ hacc => hasService_loadChannel.trans hacc) _ rfl

/-- **What is declared is what is encoded.**  Along every sequence of operations whose starts, where
there is a service to be told, find a stream like the one the pipeline was built for: after each, of
every channel that runs the services are told the codec and the frame rate of its encoder. -/
theorem declared_of_fits (hlib : lib.Lawful) (db : StoreCalls δ)
    (hasService : StreamingService → Bool) (store : Option δ) (ops : List Operation)
    (h : ∀ svc : StreamingService, svc.Declares → hasService svc →
      EveryStep (Operation.apply db) (Operation.Fits db) (newManager hasService store) ops) :
    Along (Operation.apply db) (Declared lib) (newManager hasService store) ops := by
  by_cases hany : ∃ svc : StreamingService, svc.Declares ∧ hasService svc
  · obtain ⟨svc, hdeclares, hsvc⟩ := hany
    exact (along_of_everyStep (P := AllDeclared) (fun _ _ hm hs => hm.apply hs)
      (newManager_declared hasService store) (h svc hdeclares hsvc)).mono fun _ hm =>
        hm.declared hlib
  · -- no service is ever told
    refine (along_of_step (P := fun m : Manager δ => m.hasService = hasService)
      (fun _ op hm => (hasService_apply op).trans hm) ops rfl).mono ?_
    rintro m rfl id e - - svc hdeclares hsvc
    exact absurd ⟨svc, hdeclares, hsvc⟩ hany

def yardCamera : ChannelConfig := { rtspUrl := "rtsp://yard", codec := .h264 }

/-- The camera sends what its channel was made for. -/
theorem declared_yard :
    Along (Operation.apply noStore) (Declared smallLibrary) (newManager (fun _ => true) none)
      [.create yardCamera,
        .start 1 { info := { codec := .h264, width := 1920, height := 1080, framerate := 30 } },
        .edit 1 { yardCamera with framerate := 25 }
          { info := { codec := .h264, width := 1920, height := 1080, framerate := 25 } }] := by
  refine declared_of_fits lawful_smallLibrary noStore (fun _ => true) none _ fun _ _ _ =>
    ⟨trivial, ?_, ?_, trivial⟩
  · intro e he _ _ _ p hp
    obtain rfl := Option.some.inj he
    obtain rfl := Option.some.inj hp
    exact fun _ _ => ⟨rfl, fun _ => rfl⟩
  · intro e he _ _ _ _ _ _
    exact ⟨rfl, fun _ => rfl⟩

/-- A camera that sends H.265 to a channel made for H.264: the services are told H.265, and the
encoder sends H.264. -/
theorem declared_refuted :
    ¬ ∀ (lib : JsonLibrary), lib.Lawful → ∀ (db : StoreCalls Unit)
      (hasService : StreamingService → Bool) (store : Option Unit) (ops : List Operation),
      Along (Operation.apply db) (Declared lib) (newManager hasService store) ops := by
  intro h
  have hlast := (h smallLibrary lawful_smallLibrary noStore (fun _ => true) none
    [.create yardCamera,
      .start 1 { info := { codec := .h265, width := 1920, height := 1080 } }]).last
  obtain ⟨p, r, hp, -, hr, hmatches⟩ := hlast 1 _ rfl rfl .rtsp trivial rfl
  obtain rfl := Option.some.inj hp
  obtain rfl := Option.some.inj hr
  have hint : IntFields (yardCamera.withId 1).1 :=
    ⟨by decide, by decide, by decide, by decide, by decide, by decide, by decide, by decide⟩
  obtain ⟨s, hs, enc, henc⟩ := exists_encoder smallLibrary (yardCamera.withId 1).1
  have hencodes := (hs.encodes lawful_smallLibrary hint).encoder enc henc
  have hcodec := (hmatches hint s hs enc henc).codec.trans hencodes.codec
  cases hcodec

end LoongNvr.Channel
