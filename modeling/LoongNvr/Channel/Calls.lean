import LoongNvr.Channel.Actions

/-!
# Channel — Calls

How a call about a channel leaves it, run to its end with no other about.

* `Holds.startChannel`: a start of a channel that does not run.
* `deleteChannel_absent`: a deletion.
* `edited`, `installed`: an edit, up to where the old pipeline is gone and to where the new one is
  in place.
* `startChannel_steady` and its siblings: each call leaves its channel as it stands between
  operations.
-/

namespace LoongNvr.Channel
open Support Program

variable {δ : Type*} {db : StoreCalls δ} {m : Manager δ} {a : Action} {id c : ℤ}

/-! ### Calls -/

theorem ChannelPipeline.config_start (p : ChannelPipeline) (succeeds : Bool) :
    (p.start succeeds).config = p.config := by
  unfold ChannelPipeline.start
  split <;> rfl

/-- The configuration once a start has met the stream. -/
def ConfigOf.started (config : ConfigOf id) (info : StreamInfo) : ConfigOf id :=
  if info.width > 0 ∧ info.height > 0 then config.detect info else config

theorem Holds.announce {e : ChannelEntry id} {p : ChannelPipeline} {reg : StreamingService → Bool}
    (h : Holds m id e p reg) (db : StoreCalls δ) (info : StreamInfo) :
    (m.call db (announce id e.config info)).1 = true ∧
      Holds (m.call db (announce id e.config info)).2 id
        { e with config := e.config.started info, state := .running, errorMessage := "" } p
        fun _ => true := by
  have hinfo : Holds (m.call db (takeStreamInfo id e.config info)).2 id
      { e with config := e.config.started info } p reg := by
    unfold takeStreamInfo ConfigOf.started
    split
    · refine Holds.release ?_
      have hd := h.modifyEntry (f := fun e => { e with config := e.config.detect info }) rfl
      simp only [Manager.apply, h.entry]
      exact ⟨hd.entry, hd.pipeline, hd.registered, hd.built⟩
    · exact h
  simp only [Channel.announce, Manager.call, bind_eq, run_bind, pure_eq, run_done]
  exact ⟨trivial, (hinfo.registerAll db _).setState db .running (some "")⟩

/-- What a start leaves of a channel that does not run, as it goes well or not. -/
structure StartedFrom (e : ChannelEntry id) (p : ChannelPipeline) (info : StreamInfo) (ok : Bool)
    (r : Bool × Manager δ) : Prop where
  returns : r.1 = ok
  holds : ∃ e' p', Holds r.2 id e' p' (fun _ => p'.running) ∧ e'.pipeline = e.pipeline ∧
    p'.config = p.config ∧ p'.running = ok ∧
    e'.state = (if ok then .running else .error) ∧
    e'.config = if ok then e.config.started info else e.config

theorem StartedFrom.withLocals {e : ChannelEntry id} {p : ChannelPipeline} {info : StreamInfo}
    {ok : Bool} {q : Call δ Bool} (h : StartedFrom e p info ok (m.call db q)) :
    StartedFrom e p info ok (m.call db (withLocals q)) := by
  obtain ⟨hreturns, e', p', hholds, hrest⟩ := h
  simp only [Manager.call, Channel.withLocals, run_bind]
  exact ⟨hreturns, e', p', hholds.idle db (by simp), hrest⟩

theorem withLocals_congr {ρ : Type*} {m m' : Manager δ} {p q : Call δ ρ}
    (h : m.call db p = m'.call db q) :
    m.call db (withLocals p) = m'.call db (withLocals q) := by
  rw [Manager.call, Manager.call] at h
  rw [Manager.call, Manager.call, withLocals, withLocals, run_bind, run_bind, h]

/-- A start that goes well, up to where the stream is asked for. -/
theorem Holds.call_startChannel {e : ChannelEntry id} {p : ChannelPipeline}
    {reg : StreamingService → Bool} (h : Holds m id e p reg) (hstate : e.state ≠ .running)
    (db : StoreCalls δ) {o : StartOutcome} (hi : o.initializes = true) (hs : o.starts = true) :
    ∃ (m' : Manager δ) (p' : ChannelPipeline), Holds m' id e p' reg ∧ p'.config = p.config ∧
      p'.running = true ∧ m'.hasService = m.hasService ∧
      m.call db (startChannel id o) =
        m'.call db (withLocals (Channel.announce id e.config o.info)) := by
  have hinit := (h.idle db (a := .startFind id) (by simp)).initializeStages db o.initializes
  have hcan : (p.initializeStages o.initializes).canStart := by
    simp [ChannelPipeline.canStart, ChannelPipeline.initializeStages, hi]
  have hpipe := (hinit.pipeline e.pipeline).trans (if_pos rfl)
  have hany := congrArg (Option.any (·.canStart)) hpipe
  refine ⟨_, _, hinit.start db o.starts, ?_, ?_, ?_, withLocals_congr ?_⟩
  · rw [ChannelPipeline.config_start]
    rfl
  · rw [ChannelPipeline.start, if_pos ⟨hcan, hs⟩]
  · simp only [Manager.hasService_exec]
  · simp only [Manager.call, bind_eq, pure_eq, run_act_bind]
    rw [h.entry]
    dsimp only
    rw [if_neg hstate, run_act_bind, if_pos hi, run_act_bind,
      if_pos (Bool.and_eq_true_iff.mpr ⟨hany.trans hcan, hs⟩)]

/-- **A start** of a channel that does not run. -/
theorem Holds.startChannel {e : ChannelEntry id} {p : ChannelPipeline}
    (h : Holds m id e p fun _ => false) (hp : p.running = false) (hstate : e.state ≠ .running)
    (db : StoreCalls δ) (o : StartOutcome) :
    StartedFrom e p o.info (o.initializes && o.starts) (m.call db (startChannel id o)) := by
  by_cases hok : o.initializes = true ∧ o.starts = true
  · obtain ⟨m', p', hholds, hconfig, hruns, -, heq⟩ := h.call_startChannel hstate db hok.1 hok.2
    obtain ⟨hreturns, hannounced⟩ := hholds.announce db o.info
    rw [heq, Bool.and_eq_true_iff.mpr hok]
    rw [← hruns] at hannounced
    exact StartedFrom.withLocals ⟨hreturns, _, _, hannounced, rfl, hconfig, hruns, rfl, rfl⟩
  refine StartedFrom.withLocals ?_
  have hfalse : (o.initializes && o.starts) = false :=
    Bool.eq_false_iff.mpr fun hand => hok (Bool.and_eq_true_iff.mp hand)
  simp only [Manager.call, bind_eq, pure_eq, run_act_bind]
  rw [h.entry, hfalse]
  have hfound := h.idle db (a := .startFind id) (by simp)
  dsimp only
  rw [if_neg hstate, run_act_bind]
  have hinit := hfound.initializeStages db o.initializes
  have hidle : (p.initializeStages o.initializes).running = false := hp
  by_cases hi : o.initializes = true
  · rw [if_pos hi, run_act_bind]
    have hstart := hinit.start db o.starts
    have hs : ¬ o.starts = true := fun hs => hok ⟨hi, hs⟩
    have hsame : (p.initializeStages o.initializes).start o.starts =
        p.initializeStages o.initializes := if_neg fun hand => hs hand.2
    rw [if_neg fun hand => hs (Bool.and_eq_true_iff.mp hand).2, run_acts_bind]
    rw [hsame, ← hidle] at hstart
    have herror := hstart.setState db .error (some "pipeline start failed")
    exact ⟨rfl, _, _, herror, rfl, rfl, hidle, rfl, rfl⟩
  · rw [if_neg hi, run_acts_bind]
    rw [← hidle] at hinit
    have herror := hinit.setState db .error (some "pipeline initialization failed")
    exact ⟨rfl, _, _, herror, rfl, rfl, hidle, rfl, rfl⟩

/-- A start, of a channel that is running or of one that is not. -/
theorem startChannel_steady (h : Steady m id) (o : StartOutcome) :
    Steady (m.call db (startChannel id o)).2 id := by
  rcases h with h | ⟨e, p, h, hrun⟩
  · refine .inl (Absent.of_withLocals ?_)
    exact h.find (by simp only [Manager.apply, h.entry]) _
  by_cases hstate : e.state = .running
  · refine Steady.of_withLocals ?_
    simp only [Manager.call, bind_eq, pure_eq, run_act_bind]
    rw [h.entry]
    dsimp only
    rw [if_pos hstate]
    exact .inr ⟨_, p, h.idle db (a := .startFind id) (by simp), hrun⟩
  · have hp : p.running = false := by simpa [hstate] using hrun
    obtain ⟨-, e', p', hholds, -, -, hrunning, hstate', -⟩ :=
      (hp ▸ h).startChannel hp hstate db o
    refine .inr ⟨e', p', hholds, ?_⟩
    rw [hrunning, hstate']
    split <;> simp_all

theorem Holds.halt {e : ChannelEntry id} {p : ChannelPipeline} {reg : StreamingService → Bool}
    (h : Holds m id e p reg) (db : StoreCalls δ) :
    Holds (m.call db (halt id e.pipeline)).2 id { e with state := .stopped } p.stop
      fun _ => false := by
  simp only [Manager.call, Channel.halt, bind_eq, run_bind, run_acts]
  exact ((h.drainAndStop db).unregisterAll db).setState db .stopped none

/-- A pipeline that is stopped does not run. -/
theorem ChannelPipeline.running_stop (p : ChannelPipeline) : p.stop.running = false := by
  unfold ChannelPipeline.stop
  split
  · rfl
  · simpa using ‹¬ p.running›

theorem ChannelPipeline.config_stop (p : ChannelPipeline) : p.stop.config = p.config := by
  unfold ChannelPipeline.stop
  split <;> rfl

/-- A stop of a channel that is running. -/
theorem Holds.stopChannel {e : ChannelEntry id} {p : ChannelPipeline}
    {reg : StreamingService → Bool} (h : Holds m id e p reg) (db : StoreCalls δ)
    (hstate : e.state = .running) :
    Holds (m.call db (stopChannel id)).2 id { e with state := .stopped } p.stop
      fun _ => false := by
  have hhalt := (h.stopFind db hstate).halt db
  have hdrop := hhalt.idle db (a := .dropLocals) (by simp)
  rw [Channel.stopChannel, call_withLocals]
  simp only [Manager.call, bind_eq, pure_eq, run_act_bind]
  rw [h.entry]
  dsimp only
  rw [if_pos hstate, run_bind]
  exact hdrop

/-- A stop of one that is not. -/
theorem Holds.stopChannel_idle {e : ChannelEntry id} {p : ChannelPipeline}
    {reg : StreamingService → Bool} (h : Holds m id e p reg) (db : StoreCalls δ)
    (hstate : e.state ≠ .running) : Holds (m.call db (Channel.stopChannel id)).2 id e p reg := by
  have hfound : Holds (m.exec db 0 (.stopFind id)) id e p reg := by
    refine Holds.release ?_
    simpa only [Manager.apply, h.entry, if_neg hstate] using h
  have hdrop := hfound.idle db (a := .dropLocals) (by simp)
  rw [Channel.stopChannel, call_withLocals]
  simp only [Manager.call, bind_eq, pure_eq, run_act_bind]
  rw [h.entry]
  dsimp only
  rw [if_neg hstate]
  exact hdrop

/-- A stop. -/
theorem stopChannel_steady (h : Steady m id) : Steady (m.call db (stopChannel id)).2 id := by
  rcases h with h | ⟨e, p, h, hrun⟩
  · exact .inl ((h.find (by simp only [Manager.apply, h.entry]) _).of_withLocals)
  right
  by_cases hstate : e.state = .running
  · have hstop := p.running_stop
    exact (h.stopChannel db hstate).agrees (fun _ => hstop.symm) (by simp [hstop])
  · exact ⟨e, p, h.stopChannel_idle db hstate, hrun⟩

theorem registered_unregisterAll {svc : StreamingService} (hsvc : m.hasService svc) :
    (m.call db (unregisterFromStreamingServices id)).2.registered svc id = none := by
  cases svc <;> simp [Manager.call, unregisterFromStreamingServices,
    Manager.registered_exec_unregister, hsvc]

theorem notMem_call {ρ : Type*} (q : Call δ ρ) (h : id ∉ m.channels) :
    id ∉ (m.call db q).2.channels := by
  refine run_keeps (J := fun m => id ∉ m.channels) (fun m a h hmem => ?_) q h
  exact h (Manager.mem_exec.mp hmem).1

theorem hasService_call {ρ : Type*} (q : Call δ ρ) :
    (m.call db q).2.hasService = m.hasService := by
  refine run_keeps (J := fun m' => m'.hasService = m.hasService) (fun m' a h => ?_) q rfl
  exact Manager.hasService_exec.trans h

/-- The local variables are those of the call. -/
def OneCall (m : Manager δ) : Prop := ∀ l ∈ m.locals, l.call = 0

theorem OneCall.exec (h : OneCall m) (db : StoreCalls δ) (a : Action) :
    OneCall (m.exec db 0 a) := fun l hl =>
  (Manager.mem_locals_exec hl).1.elim (h l) fun e => e

theorem OneCall.call {ρ : Type*} (h : OneCall m) (db : StoreCalls δ) (q : Call δ ρ) :
    OneCall (m.call db q).2 :=
  run_keeps (J := OneCall) (fun _ a h => OneCall.exec h db a) q h

theorem OneCall.dropLocals (h : OneCall m) (db : StoreCalls δ) :
    (m.exec db 0 .dropLocals).locals = [] :=
  List.filter_eq_nil_iff.mpr fun l hl => by simpa using h l hl

theorem oneCall_of_nil (h : m.locals = []) : OneCall m := by simp [OneCall, h]

/-- The local variables are gone at the end of a call. -/
theorem locals_withLocals {ρ : Type*} (q : Call δ ρ) (h : OneCall m) :
    (m.call db (withLocals q)).2.locals = [] := by
  rw [call_withLocals]
  exact (h.call db q).dropLocals db

/-- What a deletion of a channel that is there goes through. -/
theorem call_deleteChannel (db : StoreCalls δ) {e : ChannelEntry id}
    (h : m.channels.lookup id = some e) :
    ∃ m' : Manager δ, id ∉ m'.channels ∧ m'.hasService = m.hasService ∧
      (m.call db (deleteChannel id)).2 =
        (((m'.call db (unregisterFromStreamingServices id)).2.exec db 0
          (.onChannelRemoved id)).exec db 0 (.delete id)).exec db 0 .dropLocals := by
  have hgone : id ∉ (m.exec db 0 (.deleteFind id)).channels := fun hmem =>
    (Manager.mem_exec.mp hmem).2 rfl
  refine ⟨((m.exec db 0 (.deleteFind id)).call db
    (when (e.state = .running) (.acts [.drainAndStop id e.pipeline]))).2, notMem_call _ hgone,
    (hasService_call _).trans Manager.hasService_exec, ?_⟩
  rw [deleteChannel, call_withLocals]
  simp only [Manager.call, bind_eq, pure_eq, run_act_bind]
  rw [h]
  simp only [run_bind, run_acts, run_done, List.foldl_cons, List.foldl_nil]

/-- A deletion, whatever there was. -/
theorem deleteChannel_absent (hm : m.locals = []) (h : Steady m id) :
    Absent (m.call db (deleteChannel id)).2 id := by
  rcases h with h | ⟨e, p, h, hrun⟩
  · exact (h.find (by simp only [Manager.apply, h.entry]) _).of_withLocals
  · have hlocals : (m.call db (deleteChannel id)).2.locals = [] :=
      locals_withLocals _ (oneCall_of_nil hm)
    obtain ⟨m', hgone, hsvc, heq⟩ := call_deleteChannel db h.entry
    have hentry : (m.call db (deleteChannel id)).2.channels.lookup id = none := by
      rw [heq]
      exact AList.lookup_eq_none.mpr fun hmem => notMem_call _ hgone
        (Manager.mem_exec.mp (Manager.mem_exec.mp (Manager.mem_exec.mp hmem).1).1).1
    refine ⟨hentry, fun n => ?_, fun svc hs => ?_, ?_⟩
    · by_contra hsome
      obtain ⟨p', hp'⟩ := Option.ne_none_iff_exists'.mp hsome
      have howns : (m.call db (deleteChannel id)).2.owns id n := by
        rw [heq] at hp' ⊢
        exact Manager.owns_of_pipelines_exec hp'
      rcases Manager.owns_iff.mp howns with ⟨e', he', -⟩ | ⟨l, hl, -⟩
      · rw [hentry] at he'
        cases he'
      · rw [hlocals] at hl
        cases hl
    · have hs' : m'.hasService svc := by
        rw [hasService_call] at hs
        exact hsvc ▸ hs
      rw [heq]
      simp only [Manager.registered_exec_of_ne, ne_eq, reduceCtorEq, not_false_eq_true,
        implies_true]
      exact registered_unregisterAll hs'
    · have hremoved : id ∉ ((m'.call db (unregisterFromStreamingServices id)).2.exec db 0
          (.onChannelRemoved id)).channelResources :=
        Manager.notMem_channelResources_exec_removed
      rw [heq]
      simpa only [Manager.mem_channelResources_exec_of_ne, ne_eq, reduceCtorEq, not_false_eq_true,
        implies_true] using hremoved

/-- **A new pipeline** takes the place of the old one, which goes. -/
theorem Holds.install {e : ChannelEntry id} {p : ChannelPipeline} {reg : StreamingService → Bool}
    (h : Holds m id e p reg) (db : StoreCalls δ) (hl : m.locals = []) (config : ConfigOf id)
    (k : ℕ) :
    Holds ((m.exec db 0 (.build id config k)).exec db 0 (.install id config m.built)) id
      { e with config := config, pipeline := m.built, state := .configured }
      { config := config.1, resources := Pipeline.allocateResources k } reg := by
  have hnew : (m.exec db 0 (.build id config k)).pipelines id m.built =
      some { config := config.1, resources := Pipeline.allocateResources k } := by
    simp [Manager.exec, Manager.apply, Manager.owns]
  have hlocals : (m.exec db 0 (.build id config k)).locals.filter (·.call ≠ 0) = [] := by
    simp [Manager.exec, Manager.apply, hl]
  have hbuilt : m.built < (m.exec db 0 (.build id config k)).built := Nat.lt_succ_self m.built
  have hregistered : ∀ svc, m.hasService svc →
      ((m.exec db 0 (.build id config k)).registered svc id).isSome = reg svc := h.registered
  have hentry : (m.exec db 0 (.build id config k)).channels.lookup id = some e := h.entry
  have hsvc : (m.exec db 0 (.build id config k)).hasService = m.hasService := rfl
  -- of the build only these facts are needed
  revert hnew hlocals hbuilt hregistered hentry hsvc
  generalize m.exec db 0 (.build id config k) = m'
  intro hnew hlocals hbuilt hregistered hentry hsvc
  simp only [Manager.exec, Manager.apply, hentry]
  have hlookup : (m'.modifyEntry id fun e =>
      { e with config := config, pipeline := m.built, state := .configured }).channels.lookup id =
      some { e with config := config, pipeline := m.built, state := .configured } := by
    rw [Manager.lookup_modifyEntry, hentry]
    rfl
  refine ⟨hlookup, fun n => ?_, fun svc hs => hregistered svc (hsvc ▸ hs), hbuilt⟩
  -- the new pipeline is the entry's; no pointer is left to any other
  by_cases hn : n = m.built
  · subst hn
    simp [Manager.owns, hlookup, hnew]
  · have hne : m.built ≠ n := fun e => hn e.symm
    simp only [ne_eq, decide_not] at hlocals
    simp [Manager.owns, hlookup, hlocals, hn, hne]

theorem call_buildPipeline (db : StoreCalls δ) (m : Manager δ) (config : ConfigOf id) :
    m.call db (buildPipeline id config) =
      if m.channelResources.keys.length ≥ Pipeline.kMaxChannels then
        (none, m.exec db 0 .countResources)
      else
        (some m.built, (m.exec db 0 .countResources).exec db 0
          (.build id config m.channelResources.keys.length)) := by
  rw [Manager.call, buildPipeline, bind_eq, run_act_bind]
  split <;> rfl

/-- The second half of an edit where there are too many channels. -/
theorem Holds.rebuild_full {e : ChannelEntry id} {p : ChannelPipeline}
    {reg : StreamingService → Bool} (h : Holds m id e p reg) (db : StoreCalls δ)
    (hfull : m.channelResources.keys.length ≥ Pipeline.kMaxChannels) (config : ConfigOf id)
    (restart : Bool) (o : StartOutcome) :
    (m.call db (rebuild id config restart o)).1 = false ∧
      Holds (m.call db (rebuild id config restart o)).2 id
        { e with state := .error, errorMessage := "pipeline rebuild failed" } p reg := by
  have hbuild := call_buildPipeline db m config
  rw [Manager.call] at hbuild
  rw [Manager.call, rebuild, bind_eq, run_bind, hbuild, if_pos hfull]
  simp only [bind_eq, pure_eq, run_acts_bind]
  have hcount := h.idle db (a := .countResources) (by simp)
  exact ⟨rfl, hcount.setState db .error (some "pipeline rebuild failed")⟩

/-- The manager with the new pipeline of an edit in place. -/
def installed (db : StoreCalls δ) (m : Manager δ) (config : ConfigOf id) : Manager δ :=
  (((m.exec db 0 .countResources).exec db 0
    (.build id config m.channelResources.keys.length)).exec db 0
    (.install id config m.built)).exec db 0 (.save config.1)

/-- The second half of an edit where there is room: the new pipeline is put in place, and started
if the channel is to run. -/
theorem call_rebuild_room (db : StoreCalls δ) (hid : id ∈ m.channels)
    (hroom : ¬ m.channelResources.keys.length ≥ Pipeline.kMaxChannels) (config : ConfigOf id)
    (restart : Bool) (o : StartOutcome) :
    m.call db (rebuild id config restart o) =
      if restart then (installed db m config).call db (startChannel id o)
      else (true, installed db m config) := by
  have hbuild := call_buildPipeline db m config
  rw [Manager.call] at hbuild
  rw [Manager.call, rebuild, bind_eq, run_bind, hbuild, if_neg hroom]
  have hfound : (((m.exec db 0 .countResources).exec db 0
      (.build id config m.channelResources.keys.length)).channels.lookup id).isSome := by
    rw [AList.lookup_isSome, Manager.mem_exec, Manager.mem_exec]
    exact ⟨⟨hid, by simp⟩, by simp⟩
  simp only [bind_eq, pure_eq, run_act_bind]
  rw [if_pos hfound, run_acts_bind]
  cases restart <;> rfl

theorem Holds.installed {e : ChannelEntry id} {p : ChannelPipeline} {reg : StreamingService → Bool}
    (h : Holds m id e p reg) (db : StoreCalls δ) (hl : m.locals = []) (config : ConfigOf id) :
    Holds (installed db m config) id
      { e with config := config, pipeline := m.built, state := .configured }
      { config := config.1
        resources := Pipeline.allocateResources m.channelResources.keys.length } reg := by
  have hcount := h.idle db (a := .countResources) (by simp)
  have hinstall := hcount.install db hl config m.channelResources.keys.length
  exact hinstall.idle db (a := .save config.1) (by simp)

theorem Holds.mem {e : ChannelEntry id} {p : ChannelPipeline} {reg : StreamingService → Bool}
    (h : Holds m id e p reg) : id ∈ m.channels :=
  AList.lookup_isSome.mp (Option.isSome_of_eq_some h.entry)

/-- The second half of an edit, of a channel that does not run. -/
theorem rebuild_steady {e : ChannelEntry id} {p : ChannelPipeline}
    (h : Holds m id e p fun _ => false) (hl : m.locals = []) (hp : p.running = false)
    (config : ConfigOf id) (restart : Bool) (o : StartOutcome) :
    Steady (m.call db (rebuild id config restart o)).2 id := by
  by_cases hmax : m.channelResources.keys.length ≥ Pipeline.kMaxChannels
  · have hfull := (h.rebuild_full db hmax config restart o).2
    exact .inr (hfull.agrees (fun _ => hp.symm) (by simp [hp]))
  · have hinstalled := h.installed db hl config
    have hsteady : Steady (installed db m config) id :=
      .inr (hinstalled.agrees (fun _ => rfl) (by simp))
    rw [call_rebuild_room db h.mem hmax]
    cases restart with
    | false => exact hsteady
    | true => exact startChannel_steady hsteady o

/-- The manager an edit leaves once the old pipeline is stopped and let go. -/
def edited (db : StoreCalls δ) (m : Manager δ) (e : ChannelEntry id) : Manager δ :=
  ((m.exec db 0 (.editFind id)).call db
    (when (e.state = .running) (halt id e.pipeline))).2.exec db 0 .dropLocals

theorem edited_locals (hl : m.locals = []) (db : StoreCalls δ) (e : ChannelEntry id) :
    (edited db m e).locals = [] :=
  (((oneCall_of_nil hl).exec db (.editFind id)).call db _).dropLocals db

/-- What an edit of a channel that is there goes through. -/
theorem call_editChannel (db : StoreCalls δ) {e : ChannelEntry id}
    (h : m.channels.lookup id = some e) (newConfig : ChannelConfig) (o : StartOutcome) :
    m.call db (editChannel id newConfig o) =
      let r := (edited db m e).call db (rebuild id (newConfig.withId id) (e.state = .running) o)
      (r.1, r.2.exec db 0 .dropLocals) := by
  rw [editChannel, Manager.call, withLocals, run_bind]
  simp only [bind_eq, run_act_bind]
  rw [h]
  simp only [run_bind (when _ _), run_acts_bind, List.foldl_cons, List.foldl_nil]
  rfl

/-- The channel does not run then. -/
theorem Holds.edited {e : ChannelEntry id} {p : ChannelPipeline}
    (h : Holds m id e p fun _ => p.running) (hrun : p.running ↔ e.state = .running)
    (db : StoreCalls δ) :
    ∃ state p', p'.running = false ∧ p'.config = p.config ∧
      (e.state ≠ .running → state = e.state) ∧ (e.state = .running → state ≠ .running) ∧
      Holds (edited db m e) id { e with state := state } p' fun _ => false := by
  have hfound := h.idle db (a := .editFind id) (by simp)
  by_cases hstate : e.state = .running
  · refine ⟨.stopped, p.stop, p.running_stop, p.config_stop, absurd hstate, fun _ => nofun, ?_⟩
    rw [Channel.edited, when, if_pos hstate]
    exact (hfound.halt db).idle db (by simp)
  · have hp : p.running = false := by simpa [hstate] using hrun
    refine ⟨e.state, p, hp, rfl, fun _ => rfl, fun hrun => absurd hrun hstate, ?_⟩
    rw [Channel.edited, when, if_neg hstate]
    rw [hp] at hfound
    exact hfound.idle db (by simp)

/-- An edit. -/
theorem editChannel_steady (hl : m.locals = []) (h : Steady m id) (newConfig : ChannelConfig)
    (o : StartOutcome) : Steady (m.call db (editChannel id newConfig o)).2 id := by
  rcases h with h | ⟨e, p, h, hrun⟩
  · refine .inl (Absent.of_withLocals ?_)
    exact h.find (by simp only [Manager.apply, h.entry]) _
  · obtain ⟨state, p', hp', -, -, -, hedited⟩ := h.edited hrun db
    rw [call_editChannel db h.entry]
    exact (rebuild_steady hedited (edited_locals hl db e) hp' (newConfig.withId id) _ o).dropLocals db

end LoongNvr.Channel
