import LoongNvr.Channel.RegisteredRunning
import LoongNvr.Support.Program
import Mathlib.Data.Fin.VecNotation
import Mathlib.Data.Fintype.Basic

/-!
# Channel — Orphans

Starts, stops, edits and deletions at the same time.  A deletion takes the channel out of
`channels_` first, and then tells the services and the orchestrator; a start that found the channel
before registers it whenever it comes to that, and an edit stores its resources.

* `call_alone`: a call with no other in progress does what its operation does.
* `pays`: a call that takes a channel out goes on to remove what is kept of it.
* `pipeline_gone`: with no call left in progress, a channel that is not in `channels_` has no
  pipeline.
* `noOrphan_iff`: nothing is left of such a channel exactly when everything kept of it was stored
  in time, with the channel in `channels_` or a call still on its way to the removal.
-/

namespace LoongNvr.Channel
open Support Program

variable {δ : Type*} {db : StoreCalls δ} {n : ℕ} {c id : ℤ}

/-! ### Calls at the same time -/

/-- A call of the interface. -/
inductive Request
  | start (id : ℤ) (o : StartOutcome)
  | stop (id : ℤ)
  | edit (id : ℤ) (newConfig : ChannelConfig) (o : StartOutcome)
  | delete (id : ℤ)

def Request.program : Request → Call δ Bool
  | .start id o => startChannel id o
  | .stop id => stopChannel id
  | .edit id newConfig o => editChannel id newConfig o
  | .delete id => deleteChannel id

/-- The manager and the calls in progress. -/
abbrev Calls (δ : Type*) (n : ℕ) := Pool (Fin n) (Manager δ) Action Bool

/-- An action of one of the calls. -/
def actOf (db : StoreCalls δ) (i : Fin n) : Manager δ → Action → Manager δ := Manager.exec db i

/-- One of the calls does its next action. -/
def stepCalls (db : StoreCalls δ) : Calls δ n → Fin n → Calls δ n := Pool.step (actOf db)

/-- The calls before their first actions. -/
def beginCalls (m : Manager δ) (requests : Fin n → Request) : Calls δ n :=
  { state := m, rest := fun i => (requests i).program }

def Request.operation : Request → Operation
  | .start id o => .start id o
  | .stop id => .stop id
  | .edit id newConfig o => .edit id newConfig o
  | .delete id => .delete id

/-- **Alone**, a call does what its operation does. -/
theorem call_alone (m : Manager δ) (r : Request) :
    ∃ turns,
      let w := (List.replicate turns (0 : Fin 1)).foldl (stepCalls db) (beginCalls m fun _ => r)
      w.Completed ∧ w.state = r.operation.apply db m := by
  obtain ⟨turns, hturns⟩ := Pool.alone (0 : Fin 1) r.program (beginCalls m fun _ => r) rfl
  refine ⟨turns, ?_⟩
  dsimp only [stepCalls]
  rw [hturns]
  refine ⟨fun i => ⟨(m.call db r.program).1, ?_⟩, ?_⟩
  · rw [Subsingleton.elim i 0]
    rfl
  · cases r <;> rfl

/-! ### What is kept of a channel -/

/-- Where something is kept of a channel outside `channels_`. -/
inductive Record
  | stream (svc : StreamingService)
  | resources
  deriving DecidableEq, Repr

/-- Something is kept there of the channel. -/
def Record.Keeps (c : ℤ) (m : Manager δ) : Record → Prop
  | .stream svc => m.hasService svc ∧ m.registered svc c ≠ none
  | .resources => c ∈ m.channelResources

/-- The action stores it. -/
def Record.StoredBy (c : ℤ) (m : Manager δ) (a : Action) : Record → Prop
  | .stream svc => m.hasService svc ∧ ∃ config, a = .register svc c config
  | .resources => ∃ config k, a = .build c config k

/-- The action that removes it. -/
def Record.removal (c : ℤ) : Record → Action
  | .stream svc => .unregister svc c
  | .resources => .onChannelRemoved c

/-- What is kept of a channel that is not in `channels_` has to be removed. -/
def obligation (db : StoreCalls δ) (n : ℕ) (c : ℤ) (k : Record) :
    Obligation (actOf db : Fin n → Manager δ → Action → Manager δ) where
  gone m := c ∉ m.channels
  owed m := k.Keeps c m
  raises m a := k.StoredBy c m a
  discharges a := a = k.removal c
  gone_keep _ _ _ h hmem := h (Manager.mem_exec.mp hmem).1
  owed_raise i m a h := by
    cases k with
    | stream svc =>
        obtain ⟨hsvc, config, rfl⟩ := h
        refine ⟨Manager.hasService_exec.symm ▸ hsvc, ?_⟩
        simp [actOf, Manager.exec, Manager.apply, hsvc]
    | resources =>
        obtain ⟨config, k, rfl⟩ := h
        exact (AList.mem_insert _).mpr (.inl rfl)
  owed_discharge i m a h := by
    cases k with
    | stream svc =>
        subst h
        rintro ⟨hsvc, hne⟩
        rw [actOf, Manager.hasService_exec] at hsvc
        exact hne (Manager.registered_exec_unregister.trans (if_pos ⟨rfl, hsvc⟩))
    | resources =>
        subst h
        exact Manager.notMem_channelResources_exec_removed
  owed_keep i m a hstore hremove := by
    cases k with
    | stream svc =>
        by_cases hsvc : m.hasService svc
        · have hreg : ∀ config, a ≠ .register svc c config := fun config e =>
            hstore ⟨hsvc, config, e⟩
          simp only [Record.Keeps, actOf, Manager.hasService_exec,
            Manager.registered_exec_of_ne hreg hremove]
        · simp [Record.Keeps, actOf, hsvc]
    | resources =>
        exact Manager.mem_channelResources_exec_of_ne
          (fun config k e => hstore ⟨config, k, e⟩) hremove

/-! ### Every call removes what it has to -/

theorem Record.takesBack_removal (k : Record) : (k.removal c).TakesBack ∧
    ∀ id, (k.removal c).OfChannel id → c = id := by
  cases k <;> simp [Record.removal]

theorem Record.removal_ne_find (k : Record) :
    k.removal c ≠ .deleteFind c := by
  cases k <;> simp [Record.removal]

theorem decided_of_builds {ρ : Type*} {p : Call δ ρ} {I : Manager δ → Prop} (k : Record)
    (hp : p.All (Action.Builds id)) : p.Decided I (· = k.removal c) := by
  refine All.decided (hp.mono fun a ha => ?_)
  rintro rfl
  exact ha.2 k.takesBack_removal.1

theorem decided_of_ne {ρ : Type*} {p : Call δ ρ} {I : Manager δ → Prop} (k : Record)
    (hp : p.All (Action.OfChannel id)) (hne : c ≠ id) : p.Decided I (· = k.removal c) := by
  refine All.decided (hp.mono fun a ha => ?_)
  rintro rfl
  exact hne (k.takesBack_removal.2 id ha)

/-- A call that looks the channel up first, and does nothing where it is not there. -/
theorem decided_find {find : Action} {k : Record} {after : ChannelEntry c → Call δ Bool}
    (hfind : find ≠ k.removal c)
    (hafter : ∀ e, ((after e).bind fun r => step .dropLocals fun _ => done r).Decided
      (c ∉ ·.channels) (· = k.removal c)) :
    (withLocals ((act find fun m : Manager δ => m.channels.lookup c).bind fun entry =>
      match entry with
      | none => done false
      | some e => after e)).Decided (c ∉ ·.channels) (· = k.removal c) := by
  have hdrop : Action.dropLocals ≠ k.removal c := by cases k <;> simp [Record.removal]
  refine ⟨.inr ⟨hfind, fun m hm => ?_⟩, fun m => ?_⟩
  · have hnone : m.channels.lookup c = none := AList.lookup_eq_none.mpr hm
    simp only [done_bind, hnone]
    exact ⟨hdrop, fun _ _ => trivial⟩
  · simp only [done_bind]
    cases m.channels.lookup c with
    | none => exact ⟨.inr ⟨hdrop, fun _ _ => trivial⟩, fun _ => trivial⟩
    | some e => exact hafter e

theorem decided_tail {ρ : Type*} (k : Record) (r : ρ) :
    (step .dropLocals fun _ => done r : Call δ ρ).Decided (c ∉ ·.channels) (· = k.removal c) :=
  Decided.const trivial

theorem Request.decided (r : Request) (k : Record) :
    (r.program : Call δ Bool).Decided (c ∉ ·.channels) (· = k.removal c) := by
  have hfind : ∀ find : Action, ¬ find.TakesBack → find ≠ k.removal c := by
    rintro find hfind rfl
    exact hfind k.takesBack_removal.1
  cases r with
  | start id o => exact decided_of_builds k (startChannel_builds id o)
  | stop id =>
      by_cases e : c = id
      · subst e
        refine decided_find (hfind _ not_false) fun e => ?_
        split
        · simp only [halt, unregisterFromStreamingServices, bind_eq, bind_assoc, pure_eq, done_bind]
          exact ((decided_tail k true).acts_bind.acts_bind).acts_bind
        · exact decided_tail k true
      · exact decided_of_ne k (ofChannel_of_keeps (stopChannel_keeps id)) e
  | edit id newConfig o =>
      by_cases e : c = id
      · subst e
        refine decided_find (hfind _ not_false) fun e => ?_
        -- whatever was halted before, an edit ends in a rebuild
        have hrebuild := decided_of_builds (I := (c ∉ ·.channels)) (c := c) k
          (withLocals_all (δ := δ) (rebuild_builds (newConfig.withId c) (e.state = .running) o)
            (by simp))
        simp only [halt, unregisterFromStreamingServices, bind_eq, bind_assoc, when]
        split
        · simp only [bind_assoc]
          exact ((hrebuild.acts_bind.acts_bind).acts_bind).acts_bind
        · exact hrebuild.acts_bind
      · exact decided_of_ne k (ofChannel_of_keeps (editChannel_keeps id newConfig o)) e
  | delete id =>
      by_cases e : c = id
      · subst e
        refine decided_find k.removal_ne_find.symm fun e => ?_
        simp only [unregisterFromStreamingServices, bind_eq, bind_assoc, pure_eq, done_bind, when]
        split
        · exact ((decided_tail k true).acts_bind.acts_bind).acts_bind
        · exact (decided_tail k true).acts_bind.acts_bind
      · exact decided_of_ne k (deleteChannel_ofChannel id) e

theorem ends_of_keepsEntry {ρ : Type*} {p : Call δ ρ} (k : Record)
    (hp : p.All fun a => a ≠ .deleteFind c) : p.EveryNode (obligation db n c k).Ends := by
  refine Obligation.ends_of_all (hp.mono fun a ha i m hmem hgone => hgone ?_)
  exact Manager.mem_exec.mpr ⟨not_not.mp hmem, ha⟩

/-- **A deletion** goes on to remove what is kept of the channel. -/
theorem deleted_surely (k : Record) (e : ChannelEntry c) {I : Manager δ → Prop} :
    (((when (e.state = .running) (acts [.drainAndStop c e.pipeline])).bind fun _ =>
      (unregisterFromStreamingServices c).bind fun _ =>
        (acts [.onChannelRemoved c, .delete c]).bind fun _ => done true).bind fun r =>
          step .dropLocals fun _ => done r : Call δ Bool).Surely I (· = k.removal c) := by
  rw [bind_assoc]
  refine Surely.bind fun _ => ?_
  rw [bind_assoc]
  cases k with
  | stream svc =>
      refine Surely.acts_bind (a := .unregister svc c) ?_ rfl
      cases svc <;> simp
  | resources =>
      refine Surely.bind fun _ => ?_
      rw [bind_assoc]
      exact Surely.acts_bind (a := .onChannelRemoved c) (by simp) rfl

theorem Request.ends (r : Request) (k : Record) :
    (r.program : Call δ Bool).EveryNode (obligation db n c k).Ends := by
  have hkeeps : ∀ {p : Call δ Bool} {id : ℤ}, p.All (Action.KeepsEntry id) →
      p.EveryNode (obligation db n c k).Ends := fun hp =>
    ends_of_keepsEntry k (hp.mono fun a ha => ha.2 c)
  cases r with
  | start id o => exact hkeeps ((startChannel_keeps id o).mono fun _ h => h.1)
  | stop id => exact hkeeps ((stopChannel_keeps id).mono fun _ h => h.1)
  | edit id newConfig o => exact hkeeps ((editChannel_keeps id newConfig o).mono fun _ h => h.1)
  | delete id =>
      by_cases e : c = id
      · subst e
        refine ⟨fun i m hmem _ => ?_, fun m => ?_⟩
        · obtain ⟨e, he⟩ := Option.isSome_iff_exists.mp
            (AList.lookup_isSome.mpr (not_not.mp hmem))
          simp only [done_bind]
          rw [he]
          exact deleted_surely k e
        · have hnone : (withLocals (done false) : Call δ Bool).All (Action.KeepsEntry c) :=
            withLocals_all trivial (by simp)
          simp only [done_bind]
          cases m.channels.lookup c with
          | none => exact hkeeps hnone
          | some e => exact hkeeps (withLocals_all (deleted_keepsEntry e) (by simp))
      · refine ends_of_keepsEntry k ((deleteChannel_ofChannel id).mono fun a ha => ?_)
        rintro rfl
        exact e ha

/-- **Every call pays.** -/
theorem pays (r : Request) (k : Record) :
    (obligation db n c k).Pays (r.program : Call δ Bool) :=
  ⟨r.decided k, r.ends k⟩

/-! ### Pipelines -/

/-- The local pointers are those of calls in progress, and every pipeline has a pointer to it. -/
structure Tracked (w : Calls δ n) : Prop where
  ends : ∀ i, (∃ r, w.rest i = .done r) ∨ (w.rest i).EndsWith (· = .dropLocals)
  locals : ∀ l ∈ w.state.locals, ∃ i : Fin n, l.call = i ∧ (w.rest i).EndsWith (· = .dropLocals)
  owned : ∀ id k p, w.state.pipelines id k = some p → w.state.owns id k

theorem Tracked.step {w : Calls δ n} (h : Tracked w) (i : Fin n) : Tracked (stepCalls db w i) := by
  cases hi : w.rest i with
  | done r => rwa [stepCalls, Pool.step_of_done hi]
  | step a next =>
      have hends := (h.ends i).resolve_left fun ⟨r, hr⟩ => by
        rw [hi] at hr
        cases hr
      rw [hi] at hends
      rw [stepCalls, Pool.step_of_step hi]
      refine ⟨fun j => ?_, fun l hl => ?_, fun id k p hp => Manager.owns_of_pipelines_exec hp⟩
      · by_cases e : j = i
        · subst e
          simpa using (hends w.state).imp_left And.right
        · simpa [e] using h.ends j
      · obtain ⟨hmem, hdrop⟩ := Manager.mem_locals_exec hl
        by_cases e : l.call = i
        · refine ⟨i, e, ?_⟩
          have hnext := (hends w.state).resolve_left fun hlast => hdrop hlast.1 e
          simpa using hnext
        · obtain ⟨j, hj, hends'⟩ := h.locals l (hmem.resolve_right e)
          have hne : j ≠ i := by
            rintro rfl
            exact e hj
          exact ⟨j, hj, by simpa [hne] using hends'⟩

/-- With no call in progress there are no local pointers. -/
theorem Tracked.locals_eq_nil {w : Calls δ n} (h : Tracked w) (hdone : w.Completed) :
    w.state.locals = [] := by
  refine List.eq_nil_iff_forall_not_mem.mpr fun l hl => ?_
  obtain ⟨i, -, hends⟩ := h.locals l hl
  obtain ⟨r, hr⟩ := hdone i
  rw [hr] at hends
  exact hends

/-- **No pipeline** of a channel that is not in `channels_` is left. -/
theorem Tracked.pipeline_gone {w : Calls δ n} (h : Tracked w) (hdone : w.Completed)
    (hc : c ∉ w.state.channels) : ¬ PipelineRuns w.state c := by
  rintro ⟨k, p, hp, -⟩
  rcases Manager.owns_iff.mp (h.owned c k p hp) with ⟨e, he, -⟩ | ⟨l, hl, -⟩
  · exact hc (AList.lookup_isSome.mp (Option.isSome_of_eq_some he))
  · rw [h.locals_eq_nil hdone] at hl
    cases hl

theorem endsWith_withLocals {ρ : Type*} (p : Call δ ρ) :
    (withLocals p).EndsWith (· = .dropLocals) :=
  EndsWith.of_bind (q := (· = .dropLocals)) rfl p fun r => r

theorem Request.endsWith (r : Request) :
    (r.program : Call δ Bool).EndsWith (· = .dropLocals) := by
  cases r <;> exact endsWith_withLocals _

/-! ### Orphans -/

/-- Nothing is left of the channel if it is not in `channels_`. -/
def NoOrphan (m : Manager δ) (c : ℤ) : Prop :=
  c ∉ m.channels → ¬ PipelineRuns m c ∧
    (∀ svc, m.hasService svc → m.registered svc c = none) ∧ c ∉ m.channelResources

/-- No call is in progress, and nothing is left of the channel if it is not in `channels_`. -/
structure Settled (m : Manager δ) (c : ℤ) : Prop where
  locals : m.locals = []
  owned : ∀ id k p, m.pipelines id k = some p → m.owns id k
  noOrphan : NoOrphan m c

/-- What call `i` does next, if it stores something of the channel, it does while the channel is in
`channels_`, or while a call in progress is certain to remove it. -/
def StoresInTime (db : StoreCalls δ) (c : ℤ) (w : Calls δ n) (i : Fin n) : Prop :=
  ∀ k, (obligation db n c k).InTime w i

/-- Between operations the manager is settled. -/
theorem InOrder.settled {m : Manager δ} (h : InOrder m) (c : ℤ) : Settled m c where
  locals := h.locals
  owned id k p hp := by
    rcases h.channel id with habs | ⟨e, p', hholds, -⟩
    · rw [habs.pipeline] at hp
      cases hp
    · rw [hholds.pipeline] at hp
      split at hp
      · exact Manager.owns_iff.mpr (.inl ⟨e, hholds.entry, by simp [*]⟩)
      · cases hp
  noOrphan hc := by
    have habs : Absent m c := (h.channel c).resolve_right fun ⟨e, p, hholds, _⟩ =>
      hc (AList.lookup_isSome.mp (Option.isSome_of_eq_some hholds.entry))
    refine ⟨?_, habs.registered, habs.counted⟩
    rintro ⟨k, p, hp, -⟩
    rw [habs.pipeline] at hp
    cases hp

theorem noOrphan_iff_paid (db : StoreCalls δ) (n : ℕ) {m : Manager δ} :
    NoOrphan m c ↔ (c ∉ m.channels → ¬ PipelineRuns m c) ∧
      ∀ k, (obligation db n c k).Paid m := by
  constructor
  · intro h
    refine ⟨fun hc => (h hc).1, fun k hc hkeeps => ?_⟩
    cases k with
    | stream svc => exact hkeeps.2 ((h hc).2.1 svc hkeeps.1)
    | resources => exact (h hc).2.2 hkeeps
  · rintro ⟨hpipe, hpaid⟩ hc
    refine ⟨hpipe hc, fun svc hsvc => ?_, hpaid .resources hc⟩
    by_contra hne
    exact hpaid (.stream svc) hc ⟨hsvc, hne⟩

/-- **No orphans, exactly.**  When calls that run at the same time have come to their ends, a
channel that is not in `channels_` has no pipeline that runs, is registered with no service and is
not counted by the orchestrator, exactly if each registration of the channel and each entry in
`channel_resources_` was made with the channel in `channels_` or with a call in progress that was
certain to remove it again. -/
theorem noOrphan_iff {m : Manager δ} {requests : Fin n → Request} {sched : List (Fin n)} {c : ℤ}
    (hm : Settled m c)
    (hdone : (sched.foldl (stepCalls db) (beginCalls m requests)).Completed) :
    NoOrphan (sched.foldl (stepCalls db) (beginCalls m requests)).state c ↔
      EveryStep (stepCalls db) (StoresInTime db c) (beginCalls m requests) sched := by
  have hbegin : Tracked (beginCalls m requests) :=
    ⟨fun i => .inr (requests i).endsWith, fun l hl => by simp [beginCalls, hm.locals] at hl,
      hm.owned⟩
  have htracked : Tracked (sched.foldl (stepCalls db) (beginCalls m requests)) :=
    foldl_of_step (fun _ i hw => hw.step i) sched hbegin
  have hpaid := (noOrphan_iff_paid db n).mp hm.noOrphan
  rw [noOrphan_iff_paid db n,
    and_iff_right fun hc => htracked.pipeline_gone hdone hc]
  refine Iff.trans (forall_congr' fun k => ?_) everyStep_forall.symm
  exact Obligation.paid_iff (fun i => pays (requests i) k) (.inl (hpaid.2 k)) hdone

/-- A manager with one channel. -/
def oneChannel : Manager Unit :=
  (Operation.create { rtspUrl := "rtsp://camera/1" }).apply noStore
    (newManager (fun _ => true) none)

/-- The start finds the channel, the deletion runs to its end, and the start goes on. -/
def startAcrossDelete : List (Fin 2) := 0 :: (List.replicate 8 1 ++ List.replicate 8 0)

/-- What is left after it. -/
def afterStartAcrossDelete : Calls Unit 2 :=
  startAcrossDelete.foldl (stepCalls noStore) (beginCalls oneChannel ![.start 1 {}, .delete 1])

theorem oneChannel_settled : Settled oneChannel 1 :=
  (apply_inOrder (newManager_inOrder _ _) _).settled 1

theorem afterStartAcrossDelete_completed : afterStartAcrossDelete.Completed := by
  decide +kernel

theorem afterStartAcrossDelete_orphan : ¬ NoOrphan afterStartAcrossDelete.state 1 := by
  intro h
  have hgone : 1 ∉ afterStartAcrossDelete.state.channels := by decide +kernel
  have hleft : (afterStartAcrossDelete.state.registered .flv 1).isSome := by decide +kernel
  rw [(h hgone).2.1 .flv (by decide +kernel)] at hleft
  cases hleft

/-- **A start across a deletion** leaves the channel registered. -/
theorem not_noOrphan :
    Settled oneChannel 1 ∧ afterStartAcrossDelete.Completed ∧
      ¬ NoOrphan afterStartAcrossDelete.state 1 :=
  ⟨oneChannel_settled, afterStartAcrossDelete_completed, afterStartAcrossDelete_orphan⟩

/-- The registrations of that start come too late. -/
theorem startAcrossDelete_late :
    ¬ EveryStep (stepCalls noStore) (StoresInTime noStore 1)
      (beginCalls oneChannel ![.start 1 {}, .delete 1]) startAcrossDelete := fun h =>
  afterStartAcrossDelete_orphan
    ((noOrphan_iff oneChannel_settled afterStartAcrossDelete_completed).mpr h)

end LoongNvr.Channel
