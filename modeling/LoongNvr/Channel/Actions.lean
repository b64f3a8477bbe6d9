import LoongNvr.Channel.ChannelManager

/-!
# Channel — Actions

What an action does to each part of the manager, and what the calls are made of.

* `mem_exec`, `registered_exec_of_ne`, `mem_channelResources_exec_of_ne`, `mem_locals_exec`: each
  part after an action.
* `startChannel_builds`, `rebuild_builds`: a start and the second half of an edit take nothing
  back.
* `stopChannel_keeps` and its siblings: a call is about its channel, and only a deletion takes
  it out.
* `Holds`, `Absent`: with an entry and without.
* `Agrees`, `Steady`: as it does between operations.
* `Holds.exec_ofChannel`, `Absent.exec_ofChannel`: actions about another channel change nothing.
* `Holds.setState` and its siblings: an action about the channel.
-/

namespace LoongNvr.Channel
open Support Program

variable {δ : Type*} {db : StoreCalls δ} {m : Manager δ} {call : ℕ} {a : Action} {id c : ℤ}

/-! ### Kinds of actions -/

/-- The action is about this channel, or about none. -/
@[simp] def Action.OfChannel (c : ℤ) : Action → Prop
  | .startFind id | .stopFind id | .editFind id | .deleteFind id => id = c
  | .setState id _ _ | .detect id _ | .install id _ _ => id = c
  | .initializeStages id _ _ | .start id _ _ | .drainAndStop id _ => id = c
  | .register _ id _ | .unregister _ id => id = c
  | .build id _ _ | .onChannelRemoved id => id = c
  | .countResources | .save _ | .delete _ | .dropLocals => True

/-- The action takes something of the channel back. -/
@[simp] def Action.TakesBack : Action → Prop
  | .deleteFind _ | .unregister _ _ | .onChannelRemoved _ => True
  | _ => False

/-- An action of the channel's start, or of the second half of an edit. -/
@[simp] def Action.Builds (c : ℤ) (a : Action) : Prop := a.OfChannel c ∧ ¬ a.TakesBack

/-- The action is about the channel, and does not take it out of `channels_`. -/
@[simp] def Action.KeepsEntry (c : ℤ) (a : Action) : Prop :=
  a.OfChannel c ∧ ∀ id, a ≠ .deleteFind id

/-- Nor does it take its resources away. -/
@[simp] def Action.Keeps (c : ℤ) (a : Action) : Prop :=
  a.KeepsEntry c ∧ ∀ id, a ≠ .onChannelRemoved id

/-- An action of the channel's stop. -/
@[simp] def Action.Stops (c : ℤ) : Action → Prop
  | .stopFind id | .drainAndStop id _ | .unregister _ id | .setState id _ _ => id = c
  | .dropLocals => True
  | _ => False

/-- An action of a start after the pipeline has started. -/
@[simp] def Action.Announces (c : ℤ) : Action → Prop
  | .detect id _ | .register _ id _ | .setState id _ _ => id = c
  | _ => False

/-- What a start announces it does not take back. -/
theorem Action.Announces.builds (h : a.Announces c) : a.Builds c := by
  cases a <;> simp_all

/-- A stop keeps the entry and the resources. -/
theorem Action.Stops.keeps (h : a.Stops c) : a.Keeps c := by
  cases a <;> simp_all

/-- So does all that takes nothing back. -/
theorem Action.Builds.keeps (h : a.Builds c) : a.Keeps c := by
  refine ⟨⟨h.1, ?_⟩, ?_⟩
  all_goals
    rintro id rfl
    exact h.2 trivial

namespace Manager

/-! ### One change -/

/-- The entry that is there is changed. -/
@[simp] theorem lookup_modifyEntry {f : ChannelEntry id → ChannelEntry id} :
    (m.modifyEntry id f).channels.lookup id = (m.channels.lookup id).map f := by
  unfold modifyEntry
  split
  · simp [*]
  · simp [*]

theorem lookup_modifyEntry_ne {f : ChannelEntry id → ChannelEntry id} (h : c ≠ id) :
    (m.modifyEntry id f).channels.lookup c = m.channels.lookup c := by
  unfold modifyEntry
  split
  · rfl
  · exact AList.lookup_insert_ne h

@[simp] theorem mem_modifyEntry {f : ChannelEntry id → ChannelEntry id} :
    c ∈ (m.modifyEntry id f).channels ↔ c ∈ m.channels := by
  rw [← AList.lookup_isSome, ← AList.lookup_isSome]
  by_cases e : c = id
  · subst e
    rw [lookup_modifyEntry, Option.isSome_map]
  · rw [lookup_modifyEntry_ne e]

/-! ### The parts after an action -/

/-- Which services are set does not change. -/
@[simp] theorem hasService_exec : (m.exec db call a).hasService = m.hasService := by
  cases a <;> simp only [exec, apply] <;> (repeat' split) <;> rfl

/-- Only a deletion takes a channel out, and no action puts one in. -/
theorem mem_exec : c ∈ (m.exec db call a).channels ↔ c ∈ m.channels ∧ a ≠ .deleteFind c := by
  cases a with
  | deleteFind id =>
      simp only [exec, release, apply]
      cases e : m.channels.lookup id with
      | none =>
          have hnot : id ∉ m.channels := AList.lookup_eq_none.mp e
          simp only [ne_eq, Action.deleteFind.injEq]
          exact ⟨fun h => ⟨h, fun heq => hnot (heq ▸ h)⟩, And.left⟩
      | some entry => simp [AList.mem_erase, and_comm, eq_comm]
  | _ =>
      simp only [exec, release, apply, build]
      (repeat' split) <;> simp

/-- Only registrations and their removal, at a service that is set, change what is registered. -/
theorem registered_exec_of_ne {svc : StreamingService} (hreg : ∀ config, a ≠ .register svc c config)
    (hunreg : a ≠ .unregister svc c) :
    (m.exec db call a).registered svc c = m.registered svc c := by
  have hset : ∀ svc' id r, (svc' = svc → id ≠ c) →
      (m.setRegistered svc' id r).registered svc c = m.registered svc c := by
    intro svc' id r hne
    by_cases e : svc = svc'
    · subst e
      simp [(hne rfl).symm]
    · simp [e]
  cases a with
  | register svc' id config =>
      simp only [exec, apply]
      split
      · refine hset svc' id _ fun e => ?_
        rintro rfl
        exact hreg config (e ▸ rfl)
      · rfl
  | unregister svc' id =>
      simp only [exec, apply]
      split
      · refine hset svc' id _ fun e => ?_
        rintro rfl
        exact hunreg (e ▸ rfl)
      · rfl
  | _ =>
      simp only [exec, apply]
      (repeat' split) <;> rfl

/-- What is registered of a channel, where a service that is set is told something of it. -/
theorem registered_told {svc svc' : StreamingService} (r : Option Registration) :
    (if m.hasService svc' then m.setRegistered svc' c r else m).registered svc c =
      if svc = svc' ∧ m.hasService svc' then r else m.registered svc c := by
  by_cases hsvc : m.hasService svc'
  · by_cases e : svc = svc'
    · subst e
      simp [hsvc]
    · simp [hsvc, e]
  · simp [hsvc]

/-- A service that is set keeps what it is told of the channel. -/
theorem registered_exec_register {svc svc' : StreamingService} (config : ConfigOf c) :
    (m.exec db call (.register svc' c config)).registered svc c =
      if svc = svc' ∧ m.hasService svc' then some (svc'.registration config.1)
      else m.registered svc c :=
  registered_told _

/-- A service that is set forgets the channel when it is told to. -/
theorem registered_exec_unregister {svc svc' : StreamingService} :
    (m.exec db call (.unregister svc' c)).registered svc c =
      if svc = svc' ∧ m.hasService svc' then none else m.registered svc c :=
  registered_told none

/-- An action about one channel changes nothing of what is registered of another. -/
theorem registered_exec_ofChannel {svc : StreamingService} (ha : a.OfChannel id) (h : c ≠ id) :
    (m.exec db call a).registered svc c = m.registered svc c := by
  refine registered_exec_of_ne (fun config => ?_) ?_
  · rintro rfl
    exact h ha
  · rintro rfl
    exact h ha

/-- Only a build, and `OnChannelRemoved`, change whether a channel is counted. -/
theorem mem_channelResources_exec_of_ne (hbuild : ∀ config n, a ≠ .build c config n)
    (hremoved : a ≠ .onChannelRemoved c) :
    c ∈ (m.exec db call a).channelResources ↔ c ∈ m.channelResources := by
  cases a with
  | build id config n =>
      have hne : c ≠ id := by
        rintro rfl
        exact hbuild config n rfl
      simp [exec, apply, hne]
  | onChannelRemoved id =>
      have hne : c ≠ id := by
        rintro rfl
        exact hremoved rfl
      simp [exec, apply, AList.mem_erase, hne]
  | _ =>
      simp only [exec, apply]
      (repeat' split) <;> rfl

/-- `OnChannelRemoved` takes the channel out of the count. -/
theorem notMem_channelResources_exec_removed :
    c ∉ (m.exec db call (.onChannelRemoved c)).channelResources :=
  fun h => (AList.mem_erase.mp h).1 rfl

theorem mem_channelResources_exec_ofChannel (ha : a.OfChannel id) (h : c ≠ id) :
    c ∈ (m.exec db call a).channelResources ↔ c ∈ m.channelResources := by
  refine mem_channelResources_exec_of_ne (fun config n => ?_) ?_
  · rintro rfl
    exact h ha
  · rintro rfl
    exact h ha

theorem lookup_exec_ofChannel (ha : a.OfChannel id) (h : c ≠ id) :
    (m.exec db call a).channels.lookup c = m.channels.lookup c := by
  cases a with
  | deleteFind id' =>
      have hne : c ≠ id' := fun e => h (e.trans ha)
      simp only [exec, apply]
      split
      · rfl
      · exact AList.lookup_erase_ne hne
  | startFind id' | stopFind id' | editFind id' | setState id' _ _ | detect id' _
  | install id' _ _ =>
      have hne : c ≠ id' := fun e => h (e.trans ha)
      simp only [exec, apply]
      (repeat' split) <;> simp [lookup_modifyEntry_ne hne]
  | _ =>
      simp only [exec, apply]
      (repeat' split) <;> rfl

/-- The pipelines of the other channels after an action, but for those that go. -/
theorem pipelines_apply_ofChannel (ha : a.OfChannel id) (h : c ≠ id) :
    (m.apply db call a).pipelines c = m.pipelines c := by
  cases a with
  | initializeStages id' _ _ | start id' _ _ | drainAndStop id' _ | build id' _ _ =>
      have hne : c ≠ id' := fun e => h (e.trans ha)
      simp [apply, hne]
  | _ => simp only [apply] <;> (repeat' split) <;> rfl

/-- Pipelines are numbered on. -/
theorem built_le_exec : m.built ≤ (m.exec db call a).built := by
  cases a with
  | build id config n => exact Nat.le_succ _
  | _ =>
      simp only [exec, apply]
      repeat' split
      all_goals exact le_rfl

@[simp] theorem nextChannelId_exec : (m.exec db call a).nextChannelId = m.nextChannelId := by
  cases a <;> simp only [exec, apply] <;> (repeat' split) <;> rfl

/-- A pointer that is taken is of the call that takes it. -/
theorem mem_locals_hold {n : ℕ} {l : LocalPointer} (h : l ∈ (m.hold call id n).locals) :
    l ∈ m.locals ∨ l.call = call := by
  rcases List.mem_cons.mp h with rfl | h
  · exact .inr rfl
  · exact .inl h

/-- A local pointer after an action was there before, or is of the call that acts. -/
theorem mem_locals_exec {l : LocalPointer} (h : l ∈ (m.exec db call a).locals) :
    (l ∈ m.locals ∨ l.call = call) ∧ (a = .dropLocals → l.call ≠ call) := by
  cases a with
  | dropLocals =>
      have hmem := List.mem_filter.mp h
      exact ⟨.inl hmem.1, fun _ => by simpa using hmem.2⟩
  | build id config n =>
      rcases List.mem_cons.mp h with rfl | h
      · exact ⟨.inr rfl, by simp⟩
      · exact ⟨.inl h, by simp⟩
  | install id config n =>
      refine ⟨.inl ?_, by simp⟩
      revert h
      simp only [exec, apply]
      split
      · exact fun h => h
      · exact fun h => (List.mem_filter.mp h).1
  | startFind id | stopFind id | editFind id | deleteFind id =>
      refine ⟨?_, by simp⟩
      revert h
      simp only [exec, apply]
      repeat' split
      all_goals first
        | exact .inl
        | exact mem_locals_hold
  | _ =>
      refine ⟨.inl ?_, by simp⟩
      revert h
      simp only [exec, apply]
      (repeat' split) <;> exact id

/-- A pipeline that is left after an action has a pointer to it. -/
theorem owns_of_pipelines_exec {n : ℕ} {p : ChannelPipeline}
    (h : (m.exec db call a).pipelines id n = some p) : (m.exec db call a).owns id n := by
  by_contra howns
  have hnone : (m.exec db call a).pipelines id n = none := if_neg howns
  rw [hnone] at h
  cases h

/-- A pipeline is owned by the entry it is in, or by a local pointer. -/
theorem owns_iff {n : ℕ} : m.owns id n ↔
    (∃ entry, m.channels.lookup id = some entry ∧ entry.pipeline = n) ∨
      ∃ l ∈ m.locals, l.channelId = id ∧ l.pipeline = n := by
  simp [owns, Option.any_eq_true]

end Manager

/-! ### The actions of a call -/

/-- A call with its end has the actions of the call, and one more. -/
theorem withLocals_all {ρ : Type*} {P : Action → Prop} {p : Call δ ρ} (hp : p.All P)
    (hdrop : P .dropLocals) : (withLocals p).All P :=
  hp.bind fun _ => ⟨hdrop, fun _ => trivial⟩

/-- The announcement of a started channel registers it and sets its state. -/
theorem announce_announces (config : ConfigOf id) (info : StreamInfo) :
    (announce id config info : Call δ Bool).All (Action.Announces id) := by
  refine All.bind ?_ fun config => All.bind ?_ fun _ => All.bind ?_ fun _ => trivial
  · unfold takeStreamInfo
    split
    · exact All.act (by simp) _
    · trivial
  · exact All.acts (by simp)
  · exact All.acts (by simp)

/-- A start takes nothing back. -/
theorem startChannel_builds (id : ℤ) (o : StartOutcome) :
    (startChannel id o : Call δ Bool).All (Action.Builds id) := by
  refine withLocals_all (All.bind (All.act (by simp) _) fun entry => ?_) (by simp)
  cases entry with
  | none => trivial
  | some entry =>
      dsimp only
      split
      · trivial
      · refine All.bind (All.act (by simp) _) fun initialized => ?_
        split
        · refine All.bind (All.act (by simp) _) fun started => ?_
          split
          · exact (announce_announces _ _).mono fun _ h => h.builds
          · exact All.bind (All.acts (by simp)) fun _ => trivial
        · exact All.bind (All.acts (by simp)) fun _ => trivial

/-- Nor does the second half of an edit, which may start the channel again. -/
theorem rebuild_builds (config : ConfigOf id) (restart : Bool) (o : StartOutcome) :
    (rebuild id config restart o : Call δ Bool).All (Action.Builds id) := by
  refine All.bind (All.bind (All.act (by simp) _) fun activeCount => ?_) fun built => ?_
  · split
    · trivial
    · exact All.act (by simp) _
  · cases built with
    | none => exact All.bind (All.acts (by simp)) fun _ => trivial
    | some n =>
        refine All.bind (All.act (by simp) _) fun found => ?_
        split
        · refine All.bind (All.acts (by simp)) fun _ => ?_
          split
          · exact startChannel_builds id o
          · trivial
        · trivial

theorem startChannel_keeps (id : ℤ) (o : StartOutcome) :
    (startChannel id o : Call δ Bool).All (Action.Keeps id) :=
  (startChannel_builds id o).mono fun _ h => h.keeps

/-- A channel is unregistered by actions of a stop. -/
theorem unregister_stops (id : ℤ) :
    (unregisterFromStreamingServices id : Call δ Unit).All (Action.Stops id) :=
  All.acts (by simp)

theorem halt_stops (id : ℤ) (pipeline : ℕ) :
    (halt id pipeline : Call δ Unit).All (Action.Stops id) :=
  All.bind (All.acts (by simp)) fun _ => All.bind (unregister_stops id) fun _ =>
    All.acts (by simp)

/-- A stop does nothing but stop. -/
theorem stopChannel_stops (id : ℤ) : (stopChannel id : Call δ Bool).All (Action.Stops id) := by
  refine withLocals_all (All.bind (All.act (by simp) _) fun entry => ?_) (by simp)
  cases entry with
  | none => trivial
  | some entry =>
      dsimp only
      split
      · exact All.bind (halt_stops id _) fun _ => trivial
      · trivial

theorem stopChannel_keeps (id : ℤ) : (stopChannel id : Call δ Bool).All (Action.Keeps id) :=
  (stopChannel_stops id).mono fun _ h => h.keeps

/-- An edit keeps the entry: it stops the channel and builds it again. -/
theorem editChannel_keeps (id : ℤ) (newConfig : ChannelConfig) (o : StartOutcome) :
    (editChannel id newConfig o : Call δ Bool).All (Action.Keeps id) := by
  refine withLocals_all (All.bind (All.act (by simp) _) fun entry => ?_) (by simp)
  cases entry with
  | none => trivial
  | some entry =>
      exact All.bind (All.when fun _ => (halt_stops id _).mono fun _ h => h.keeps) fun _ =>
        All.bind (All.acts (by simp)) fun _ => (rebuild_builds _ _ o).mono fun _ h => h.keeps

/-- What a deletion does after it has taken the channel out. -/
theorem deleted_keepsEntry (e : ChannelEntry id) :
    ((when (e.state = .running) (acts [.drainAndStop id e.pipeline])).bind fun _ =>
      (unregisterFromStreamingServices id).bind fun _ =>
        (acts [.onChannelRemoved id, .delete id]).bind fun _ =>
          done true : Call δ Bool).All (Action.KeepsEntry id) :=
  All.bind (All.when fun _ => All.acts (by simp)) fun _ =>
    All.bind ((unregister_stops id).mono fun _ h => h.keeps.1) fun _ =>
      All.bind (All.acts (by simp)) fun _ => trivial

/-- A deletion is about its channel only. -/
theorem deleteChannel_ofChannel (id : ℤ) :
    (deleteChannel id : Call δ Bool).All (Action.OfChannel id) := by
  refine withLocals_all (All.bind (All.act (by simp) _) fun entry => ?_) (by simp)
  cases entry with
  | none => trivial
  | some entry => exact (deleted_keepsEntry entry).mono fun _ h => h.1

theorem ofChannel_of_keeps {ρ : Type*} {p : Call δ ρ} (h : p.All (Action.Keeps id)) :
    p.All (Action.OfChannel id) :=
  h.mono fun _ h => h.1.1

/-! ### How a channel stands -/

/-- The channel has this entry and this pipeline and no other, and is registered with the services
that are set as `reg` says. -/
structure Holds (m : Manager δ) (id : ℤ) (e : ChannelEntry id) (p : ChannelPipeline)
    (reg : StreamingService → Bool) : Prop where
  entry : m.channels.lookup id = some e
  pipeline : ∀ n, m.pipelines id n = if n = e.pipeline then some p else none
  registered : ∀ svc, m.hasService svc → (m.registered svc id).isSome = reg svc
  built : e.pipeline < m.built

/-- Nothing is there of the channel. -/
structure Absent (m : Manager δ) (id : ℤ) : Prop where
  entry : m.channels.lookup id = none
  pipeline : ∀ n, m.pipelines id n = none
  registered : ∀ svc, m.hasService svc → m.registered svc id = none
  counted : id ∉ m.channelResources

/-- The channel is running, and the pipeline and the services know; or it is not. -/
def Agrees (m : Manager δ) (id : ℤ) : Prop :=
  ∃ e p, Holds m id e p (fun _ => p.running) ∧ (p.running ↔ e.state = .running)

/-- The channel stands as it does between operations. -/
def Steady (m : Manager δ) (id : ℤ) : Prop := Absent m id ∨ Agrees m id

/-- The manager between operations. -/
structure InOrder (m : Manager δ) : Prop where
  locals : m.locals = []
  channel : ∀ id, Steady m id
  fresh : ∀ id ∈ m.channels, id < m.nextChannelId

/-- A channel that its services know as its pipeline runs agrees. -/
theorem Holds.agrees {e : ChannelEntry id} {p : ChannelPipeline} {reg : StreamingService → Bool}
    (h : Holds m id e p reg) (hreg : ∀ svc, reg svc = p.running)
    (hrun : p.running ↔ e.state = .running) : Agrees m id := by
  obtain rfl : reg = fun _ => p.running := funext hreg
  exact ⟨e, p, h, hrun⟩

/-- What is there of a channel with an entry. -/
theorem InOrder.holds (h : InOrder m) {e : ChannelEntry id} (he : m.channels.lookup id = some e) :
    ∃ p, Holds m id e p (fun _ => p.running) ∧ (p.running ↔ e.state = .running) := by
  rcases h.channel id with habs | ⟨e', p, hholds, hrun⟩
  · rw [habs.entry] at he
    cases he
  · rw [hholds.entry, Option.some.injEq] at he
    exact he ▸ ⟨p, hholds, hrun⟩

/-! ### Actions about another channel -/

/-- Pipelines without a pointer go; the one in the entry has one. -/
theorem Holds.release {e : ChannelEntry id} {p : ChannelPipeline} {reg : StreamingService → Bool}
    (h : Holds m id e p reg) : Holds m.release id e p reg where
  entry := h.entry
  pipeline n := by
    by_cases hn : n = e.pipeline
    · have howns : m.owns id n := Manager.owns_iff.mpr (.inl ⟨e, h.entry, hn.symm⟩)
      simp [howns, h.pipeline]
    · simp [h.pipeline, hn]
  registered := h.registered
  built := h.built

/-- An action about another channel leaves the channel as it stands. -/
theorem Holds.exec_ofChannel {e : ChannelEntry c} {p : ChannelPipeline}
    {reg : StreamingService → Bool} (h : Holds m c e p reg) (ha : a.OfChannel id) (hne : c ≠ id) :
    Holds (m.exec db 0 a) c e p reg := by
  refine Holds.release ⟨?_, fun n => ?_, fun svc hsvc => ?_, ?_⟩
  · have hlookup : (m.exec db 0 a).channels.lookup c = _ := Manager.lookup_exec_ofChannel ha hne
    exact hlookup.trans h.entry
  · rw [Manager.pipelines_apply_ofChannel ha hne, h.pipeline]
  · have hreg : (m.exec db 0 a).registered svc c = _ := Manager.registered_exec_ofChannel ha hne
    have hs : (m.exec db 0 a).hasService = _ := Manager.hasService_exec
    exact (congrArg Option.isSome hreg).trans (h.registered svc (hs ▸ hsvc))
  · have hbuilt : m.built ≤ (m.exec db 0 a).built := Manager.built_le_exec
    exact h.built.trans_le hbuilt

/-- An action about another channel puts nothing there. -/
theorem Absent.exec_ofChannel (h : Absent m c) (ha : a.OfChannel id) (hne : c ≠ id) :
    Absent (m.exec db 0 a) c where
  entry := (Manager.lookup_exec_ofChannel ha hne).trans h.entry
  pipeline n := by
    have hnone : (m.apply db 0 a).pipelines c n = none := by
      rw [Manager.pipelines_apply_ofChannel ha hne, h.pipeline]
    simp [Manager.exec, hnone]
  registered svc hsvc := by
    rw [Manager.hasService_exec] at hsvc
    rw [Manager.registered_exec_ofChannel ha hne]
    exact h.registered svc hsvc
  counted := (Manager.mem_channelResources_exec_ofChannel ha hne).not.mpr h.counted

/-! ### Actions about the channel -/

section Actions

variable {e : ChannelEntry id} {p : ChannelPipeline} {reg : StreamingService → Bool}

/-- The pipeline of the entry is changed. -/
theorem Holds.setPipeline (h : Holds m id e p reg) (f : ChannelPipeline → ChannelPipeline) :
    Holds (m.setPipeline id e.pipeline ((m.pipelines id e.pipeline).map f)) id e (f p) reg where
  entry := h.entry
  pipeline n := by
    by_cases hn : n = e.pipeline
    · simp [hn, h.pipeline]
    · simp [hn, h.pipeline]
  registered := h.registered
  built := h.built

/-- The entry is changed, but not its pipeline. -/
theorem Holds.modifyEntry (h : Holds m id e p reg) {f : ChannelEntry id → ChannelEntry id}
    (hf : (f e).pipeline = e.pipeline) : Holds (m.modifyEntry id f) id (f e) p reg where
  entry := by rw [Manager.lookup_modifyEntry, h.entry, Option.map_some]
  pipeline n := by rw [hf]; exact h.pipeline n
  registered := h.registered
  built := hf ▸ h.built

/-- A service that is set is told something of the channel. -/
theorem Holds.setRegistered (h : Holds m id e p reg) (svc : StreamingService)
    (r : Option Registration) :
    Holds (if m.hasService svc then m.setRegistered svc id r else m) id e p
      (Function.update reg svc r.isSome) := by
  split
  · refine ⟨h.entry, h.pipeline, fun svc' hsvc' => ?_, h.built⟩
    by_cases hs : svc' = svc
    · subst hs
      simp
    · simp [hs, h.registered svc' hsvc']
  · refine ⟨h.entry, h.pipeline, fun svc' hsvc' => ?_, h.built⟩
    have hs : svc' ≠ svc := by
      rintro rfl
      contradiction
    rw [Function.update_of_ne hs]
    exact h.registered svc' hsvc'

/-- The actions that change nothing of how the channel stands. -/
theorem Holds.idle (h : Holds m id e p reg) (db : StoreCalls δ)
    (ha : a = .startFind id ∨ a = .editFind id ∨ a = .countResources ∨ a = .dropLocals ∨
      ∃ config, a = .save config) : Holds (m.exec db 0 a) id e p reg := by
  refine Holds.release ?_
  rcases ha with rfl | rfl | rfl | rfl | ⟨config, rfl⟩
  · simp only [Manager.apply, h.entry]
    split
    · exact h
    · exact ⟨h.entry, h.pipeline, h.registered, h.built⟩
  · simp only [Manager.apply, h.entry]
    exact ⟨h.entry, h.pipeline, h.registered, h.built⟩
  · exact h
  · exact ⟨h.entry, h.pipeline, h.registered, h.built⟩
  · exact ⟨h.entry, h.pipeline, h.registered, h.built⟩

theorem Holds.setState (h : Holds m id e p reg) (db : StoreCalls δ) (state : ChannelState)
    (message : Option String) :
    Holds (m.exec db 0 (.setState id state message)) id
      { e with state := state, errorMessage := message.getD e.errorMessage } p reg :=
  (h.modifyEntry rfl).release

theorem Holds.stopFind (h : Holds m id e p reg) (db : StoreCalls δ) (hstate : e.state = .running) :
    Holds (m.exec db 0 (.stopFind id)) id { e with state := .stopping } p reg := by
  have hmod := h.modifyEntry (f := fun e => { e with state := .stopping }) rfl
  simp only [Manager.exec, Manager.apply, h.entry, if_pos hstate]
  exact Holds.release ⟨hmod.entry, hmod.pipeline, hmod.registered, hmod.built⟩

theorem Holds.initializeStages (h : Holds m id e p reg) (db : StoreCalls δ) (succeeds : Bool) :
    Holds (m.exec db 0 (.initializeStages id e.pipeline succeeds)) id e
      (p.initializeStages succeeds) reg :=
  (h.setPipeline (·.initializeStages succeeds)).release

theorem Holds.start (h : Holds m id e p reg) (db : StoreCalls δ) (succeeds : Bool) :
    Holds (m.exec db 0 (.start id e.pipeline succeeds)) id e (p.start succeeds) reg :=
  (h.setPipeline (·.start succeeds)).release

theorem Holds.drainAndStop (h : Holds m id e p reg) (db : StoreCalls δ) :
    Holds (m.exec db 0 (.drainAndStop id e.pipeline)) id e p.stop reg :=
  (h.setPipeline (·.stop)).release

/-- Four updates leave nothing of what there was. -/
theorem update_all (reg : StreamingService → Bool) (b : Bool) :
    Function.update (Function.update (Function.update (Function.update reg .flv b) .hls b) .rtsp b)
      .ws b = fun _ => b := by
  funext svc
  cases svc <;> rfl

/-- **Registered** with every service that is set. -/
theorem Holds.registerAll (h : Holds m id e p reg) (db : StoreCalls δ) (config : ConfigOf id) :
    Holds (m.call db (registerWithStreamingServices config)).2 id e p fun _ => true := by
  rw [← update_all reg true, Manager.call, registerWithStreamingServices, run_acts]
  exact ((((h.setRegistered .flv _).release.setRegistered .hls _).release.setRegistered .rtsp
    _).release.setRegistered .ws _).release

/-- **Registered** with none. -/
theorem Holds.unregisterAll (h : Holds m id e p reg) (db : StoreCalls δ) :
    Holds (m.call db (unregisterFromStreamingServices id)).2 id e p fun _ => false := by
  rw [← update_all reg false, Manager.call, unregisterFromStreamingServices, run_acts]
  exact ((((h.setRegistered .flv none).release.setRegistered .hls none).release.setRegistered
    .rtsp none).release.setRegistered .ws none).release

end Actions

theorem Absent.release (h : Absent m id) : Absent m.release id :=
  ⟨h.entry, fun n => by simp [h.pipeline], h.registered, h.counted⟩

/-- A call that looks the channel up does nothing where it is not there. -/
theorem Absent.find (h : Absent m id) {find : Action} (hfind : m.apply db 0 find = m)
    (after : ChannelEntry id → Call δ Bool) :
    Absent (m.call db ((act find fun m : Manager δ => m.channels.lookup id).bind fun entry =>
      match entry with
      | none => done false
      | some e => after e)).2 id := by
  rw [Manager.call, run_act_bind, h.entry, Manager.exec, hfind]
  exact h.release

/-- The end of a call. -/
theorem Absent.dropLocals (h : Absent m id) (db : StoreCalls δ) :
    Absent (m.exec db 0 .dropLocals) id :=
  Absent.release (m := m.dropLocals 0) ⟨h.entry, h.pipeline, h.registered, h.counted⟩

/-- The end of a call leaves the channel steady. -/
theorem Steady.dropLocals (h : Steady m id) (db : StoreCalls δ) :
    Steady (m.exec db 0 .dropLocals) id := by
  rcases h with h | ⟨e, p, h, hrun⟩
  · exact .inl (h.dropLocals db)
  · exact .inr ⟨e, p, h.idle db (by simp), hrun⟩

/-- A call ends by dropping its local pointers. -/
theorem call_withLocals {ρ : Type*} (q : Call δ ρ) :
    (m.call db (withLocals q)).2 = (m.call db q).2.exec db 0 .dropLocals := by
  rw [Manager.call, withLocals, run_bind]
  rfl

theorem Absent.of_withLocals {ρ : Type*} {q : Call δ ρ} (h : Absent (m.call db q).2 id) :
    Absent (m.call db (withLocals q)).2 id := by
  rw [call_withLocals]
  exact h.dropLocals db

theorem Steady.of_withLocals {ρ : Type*} {q : Call δ ρ} (h : Steady (m.call db q).2 id) :
    Steady (m.call db (withLocals q)).2 id := by
  rw [call_withLocals]
  exact h.dropLocals db

end LoongNvr.Channel
