import LoongNvr.Channel.ChannelMonitor
import LoongNvr.Support.Keyed
import LoongNvr.Support.Runs

/-!
# Channel — RecoveryNeeded

The monitor at work: channels that start, stop, fail and process frames at any time, the ticks of
`MonitorLoop`, and the recoveries behind each of them.

* `Warranted`: what a step of the monitor must be good for.  A tick chooses a channel that has been
  in the error state at the last ticks or has run without a frame for the timeout; a recovery starts
  no channel that a user has stopped meanwhile; it gives a channel up after so many recoveries
  without a frame.
* `warranted_of_orderly`: so it is in every run whose steps are `Orderly`.
-/

namespace LoongNvr.Channel
open Support

/-! ### The system -/

/-- A channel as it is, whoever looks. -/
structure Watched where
  state : ChannelState := .created
  /-- The counter of its pipeline. -/
  frames : ℕ := 0
  /-- When it entered `kRunning` last. -/
  runningSince : ℕ := 0
  /-- When it processed a frame last. -/
  lastFrame : ℕ := 0

def Watched.enter (c : Watched) (now : ℕ) (state : ChannelState) : Watched :=
  { c with
    state := state
    runningSince := if state = .running ∧ c.state ≠ .running then now else c.runningSince }

def Watched.process (c : Watched) (now : ℕ) : Watched :=
  { c with frames := c.frames + 1, lastFrame := now }

/-- Where the thread of the monitor is: with channels that are to be recovered, if any, or between
the calls of a recovery. -/
inductive Phase
  | recovering (pending : List ℤ)
  | stopping (id : ℤ) (rest : List ℤ)
  | starting (id : ℤ) (rest : List ℤ)

/-- The channels that were chosen and are not done with. -/
def Phase.ids : Phase → List ℤ
  | .recovering pending => pending
  | .stopping id rest => id :: rest
  | .starting id rest => id :: rest

/-- The thread sleeps until the next tick. -/
def Phase.idle : Phase → Bool
  | .recovering [] => true
  | _ => false

/-- The channel whose recovery is next. -/
def Phase.next : Phase → Option ℤ
  | .recovering (id :: _) => some id
  | _ => none

/-- The channel that is started next. -/
def Phase.started : Phase → Option ℤ
  | .starting id _ => some id
  | _ => none

/-- What has happened, as far as it matters. -/
structure History where
  /-- What the ticks saw, the last one first. -/
  reports : List (List ChannelStatus) := []
  lastTick : ℕ := 0
  /-- The channels that users have stopped since the last tick. -/
  userStopped : List ℤ := []
  /-- The recoveries of a channel since its last frame. -/
  recoveries : ℤ → ℕ := fun _ => 0
  /-- The channel has processed a frame since the first recovery that its tracker counts. -/
  processed : ℤ → Bool := fun _ => false

structure System extends History where
  now : ℕ := 0
  channels : Keyed Watched := .empty
  monitor : ChannelMonitor := {}
  phase : Phase := .recovering []

/-- What can happen. -/
inductive Event
  | elapse (ns : ℕ)
  | create (id : ℤ)
  | delete (id : ℤ)
  /-- The state of a channel changes: by a start, a failure or the end of a stop. -/
  | enter (id : ℤ) (state : ChannelState)
  /-- The pipeline of a channel processes a frame. -/
  | frame (id : ℤ)
  /-- The channel gets a new pipeline: `EditChannel`. -/
  | rebuild (id : ℤ)
  | userStop (id : ℤ)
  | setAutoRecovery (enable : Bool)
  | setErrorThreshold (threshold : ℤ)
  | setStallTimeout (seconds : ℤ)
  | tick (order : WalkOrder)
  | attempt
  | recoveryStop
  | recoveryStart

/-- `GetAllStatus` -/
def getAllStatus (channels : Keyed Watched) (order : WalkOrder) : List ChannelStatus :=
  (order.arrange (channels.rows.map (·.1))).filterMap fun id =>
    (channels.get id).map fun c => { id := id, state := c.state, framesProcessed := c.frames }

namespace System

/-- `StopChannel`, up to the stop of the pipeline. -/
def stopChannel (s : System) (id : ℤ) : System :=
  { s with channels := s.channels.modify id fun c =>
      if c.state = .running then c.enter s.now .stopping else c }

/-- `MonitorLoop`, up to the recoveries. -/
def tick (s : System) (order : WalkOrder) : System :=
  let statuses := getAllStatus s.channels order
  { s with
    monitor := (s.monitor.poll s.now statuses).1
    phase := .recovering (s.monitor.poll s.now statuses).2
    reports := statuses :: s.reports
    lastTick := s.now
    userStopped := [] }

/-- `AttemptRecovery`, up to the stop of the channel. -/
def attempt (s : System) (id : ℤ) (rest : List ℤ) : System :=
  if (s.monitor.attemptRecovery s.now id).2 then
    { s with
      monitor := (s.monitor.attemptRecovery s.now id).1
      phase := .stopping id rest
      recoveries := Function.update s.recoveries id (s.recoveries id + 1)
      processed := if (s.monitor.trackers id).any (·.recoveryAttempts = 0) then
          Function.update s.processed id false
        else s.processed }
  else { s with phase := .recovering rest }

def step (s : System) : Event → System
  | .elapse ns => { s with now := s.now + ns }
  | .create id => { s with channels := s.channels.put id {} }
  | .delete id => { s with channels := s.channels.remove id }
  | .enter id state => { s with channels := s.channels.modify id (·.enter s.now state) }
  | .frame id =>
      { s with
        channels := s.channels.modify id (·.process s.now)
        recoveries := Function.update s.recoveries id 0
        processed := Function.update s.processed id true }
  | .rebuild id => { s with channels := s.channels.modify id ({ · with frames := 0 }) }
  | .userStop id => { s.stopChannel id with userStopped := id :: s.userStopped }
  | .setAutoRecovery enable => { s with monitor := s.monitor.setAutoRecovery enable }
  | .setErrorThreshold threshold => { s with monitor := s.monitor.setErrorThreshold threshold }
  | .setStallTimeout seconds => { s with monitor := s.monitor.setStallTimeout seconds }
  | .tick order =>
      match s.phase with
      | .recovering [] => s.tick order
      | _ => s
  | .attempt =>
      match s.phase with
      | .recovering (id :: rest) => s.attempt id rest
      | _ => s
  | .recoveryStop =>
      match s.phase with
      | .stopping id rest => { s.stopChannel id with phase := .starting id rest }
      | _ => s
  | .recoveryStart =>
      match s.phase with
      | .starting _ rest => { s with phase := .recovering rest }
      | _ => s

/-! ### What is asked of a step -/

/-- The channel was seen in the error state at each of the last `n` ticks. -/
def ErrorsFor (reports : List (List ChannelStatus)) (n : ℕ) (id : ℤ) : Prop :=
  n ≤ reports.length ∧
    ∀ statuses ∈ reports.take n, ∃ status ∈ statuses, status.id = id ∧ status.state = .error

instance (reports : List (List ChannelStatus)) (n : ℕ) (id : ℤ) :
    Decidable (ErrorsFor reports n id) :=
  inferInstanceAs (Decidable (_ ∧ ∀ _ ∈ _, ∃ _ ∈ _, _))

/-- The channel has been running all through the last seconds without processing a frame. -/
def IdleFor (s : System) (seconds : ℤ) (id : ℤ) : Prop :=
  ∃ c ∈ s.channels.get id, c.state = .running ∧
    c.runningSince + seconds * second ≤ (s.now : ℤ) ∧ c.lastFrame + seconds * second ≤ (s.now : ℤ)

instance (s : System) (seconds : ℤ) (id : ℤ) : Decidable (s.IdleFor seconds id) :=
  inferInstanceAs (Decidable (∃ c ∈ _, _))

/-- **What a step of the monitor must be good for.** -/
def Warranted (s : System) : Event → Prop
  | .tick order =>
      s.phase.idle = true →
        ∀ id ∈ (s.monitor.poll s.now (getAllStatus s.channels order)).2,
          ErrorsFor (getAllStatus s.channels order :: s.reports) s.monitor.errorThreshold.toNat id ∨
            s.IdleFor s.monitor.stallTimeoutSeconds id
  | .attempt =>
      ∀ id ∈ s.phase.next,
        (s.monitor.attemptRecovery s.now id).2 = false → kMaxRecoveryAttempts ≤ s.recoveries id
  | .recoveryStart => ∀ id ∈ s.phase.started, id ∉ s.userStopped
  | _ => True

instance (s : System) : ∀ event, Decidable (s.Warranted event)
  | .tick _ => inferInstanceAs (Decidable (_ → ∀ _ ∈ _, _))
  | .attempt => inferInstanceAs (Decidable (∀ _ ∈ s.phase.next, _))
  | .recoveryStart => inferInstanceAs (Decidable (∀ _ ∈ s.phase.started, _))
  | .elapse _ | .create _ | .delete _ | .enter _ _ | .frame _ | .rebuild _ | .userStop _
  | .setAutoRecovery _ | .setErrorThreshold _ | .setStallTimeout _ | .recoveryStop =>
      inferInstanceAs (Decidable True)

/-! ### Steps that are in order -/

/-- A running channel whose counter has not grown has run without a frame since the tick before, or
since at most a second after the last progress that is noted. -/
def KeptIdle (s : System) (t : ChannelTracker) (c : Watched) : Prop :=
  (c.runningSince < s.lastTick ∨ c.runningSince ≤ t.lastProgressTime + second) ∧
    (c.lastFrame < s.lastTick ∨ c.lastFrame ≤ t.lastProgressTime + second)

/-- What is seen of a channel at a tick. -/
def SeenInOrder (s : System) (status : ChannelStatus) : Prop :=
  ∀ t ∈ s.monitor.trackers status.id, t.progressed status = false →
    (status.state ≠ .error → t.consecutiveErrors = 0) ∧
      ∀ c ∈ s.channels.get status.id, c.state = .running → s.KeptIdle t c

instance (s : System) (t : ChannelTracker) (c : Watched) : Decidable (s.KeptIdle t c) :=
  inferInstanceAs (Decidable (_ ∧ _))

instance (s : System) (status : ChannelStatus) : Decidable (s.SeenInOrder status) :=
  inferInstanceAs (Decidable (∀ _ ∈ s.monitor.trackers status.id, _ → _ ∧ ∀ _ ∈ _, _ → _))

/-- **A step that is in order.** -/
def Orderly (s : System) : Event → Prop
  | .tick order =>
      s.phase.idle = true → ∀ status ∈ getAllStatus s.channels order, s.SeenInOrder status
  | .attempt =>
      ∀ id ∈ s.phase.next, ∀ t ∈ s.monitor.trackers id,
        t.recoveryAttempts < kMaxRecoveryAttempts ∨ s.processed id = false
  | .userStop id => id ∉ s.phase.ids
  | _ => True

instance (s : System) : ∀ event, Decidable (s.Orderly event)
  | .tick _ => inferInstanceAs (Decidable (_ → ∀ _ ∈ _, _))
  | .attempt => inferInstanceAs (Decidable (∀ id ∈ s.phase.next, ∀ _ ∈ s.monitor.trackers id, _))
  | .userStop _ => inferInstanceAs (Decidable (_ ∉ _))
  | .elapse _ | .create _ | .delete _ | .enter _ _ | .frame _ | .rebuild _ | .recoveryStart
  | .setAutoRecovery _ | .setErrorThreshold _ | .setStallTimeout _ | .recoveryStop =>
      inferInstanceAs (Decidable True)

/-! ### Reports -/

theorem nodup_getAllStatus (channels : Keyed Watched) (order : WalkOrder) :
    ((getAllStatus channels order).map (·.id)).Nodup := by
  have hids : (order.arrange (channels.rows.map (·.1))).Nodup :=
    (order.perm _).nodup_iff.mpr channels.nodup_keys
  rw [getAllStatus, List.map_filterMap]
  refine hids.filterMap fun id id' key hkey hkey' => ?_
  simp only [Option.mem_def, Option.map_map, Option.map_eq_some_iff] at hkey hkey'
  obtain ⟨_, -, rfl⟩ := hkey
  obtain ⟨_, -, hsame⟩ := hkey'
  exact hsame.symm

/-- What is reported of a channel. -/
theorem mem_getAllStatus {channels : Keyed Watched} {order : WalkOrder} {status : ChannelStatus}
    (h : status ∈ getAllStatus channels order) :
    ∃ c, channels.get status.id = some c ∧ status.state = c.state ∧
      status.framesProcessed = c.frames := by
  obtain ⟨id, -, hid⟩ := List.mem_filterMap.mp h
  obtain ⟨c, hc, rfl⟩ := Option.map_eq_some_iff.mp hid
  exact ⟨c, hc, rfl, rfl⟩

theorem errorsFor_zero (reports : List (List ChannelStatus)) (id : ℤ) : ErrorsFor reports 0 id :=
  ⟨Nat.zero_le _, fun _ h => absurd h (by simp)⟩

theorem ErrorsFor.mono {reports : List (List ChannelStatus)} {n k : ℕ} {id : ℤ}
    (h : ErrorsFor reports n id) (hk : k ≤ n) : ErrorsFor reports k id :=
  ⟨hk.trans h.1, fun statuses hs => h.2 statuses (List.take_subset_take_left _ hk hs)⟩

/-- One more tick that sees it in the error state. -/
theorem ErrorsFor.cons {reports : List (List ChannelStatus)} {n : ℕ} {status : ChannelStatus}
    (h : ErrorsFor reports n status.id) {statuses : List ChannelStatus} (hmem : status ∈ statuses)
    (herror : status.state = .error) : ErrorsFor (statuses :: reports) (n + 1) status.id := by
  refine ⟨Nat.succ_le_succ h.1, ?_⟩
  rw [List.take_succ_cons]
  exact List.forall_mem_cons.mpr ⟨⟨status, hmem, rfl, herror⟩, h.2⟩

/-! ### The invariant -/

/-- What holds of the trackers and the record in a run that is in order. -/
structure Inv (s : System) : Prop where
  lastTick : s.lastTick ≤ s.now
  times : ∀ id c, s.channels.get id = some c → c.runningSince ≤ s.now ∧ c.lastFrame ≤ s.now
  errors : ∀ id t, s.monitor.trackers id = some t → ErrorsFor s.reports t.consecutiveErrors id
  idle : ∀ id t c, s.monitor.trackers id = some t → s.channels.get id = some c →
    c.state = .running → c.runningSince < s.lastTick →
      c.runningSince ≤ t.lastProgressTime + second ∧
        (c.lastFrame < s.lastTick → c.lastFrame ≤ t.lastProgressTime + second)
  recoveries : ∀ id t, s.monitor.trackers id = some t → s.processed id = false →
    t.recoveryAttempts ≤ s.recoveries id
  pending : ∀ id ∈ s.phase.ids, id ∉ s.userStopped

theorem inv_start : Inv {} where
  lastTick := le_rfl
  times _ _ h := nomatch h
  errors _ _ h := nomatch h
  idle _ _ _ h := nomatch h
  recoveries _ _ h := nomatch h
  pending _ h := absurd h List.not_mem_nil

/-- A channel that was there before, and as idle. -/
structure AsBefore (s : System) (id : ℤ) (c : Watched) : Prop where
  times : c.runningSince ≤ s.now ∧ c.lastFrame ≤ s.now
  idle : c.state = .running → c.runningSince < s.lastTick →
    ∃ c', s.channels.get id = some c' ∧ c'.state = .running ∧ c'.runningSince = c.runningSince ∧
      (c.lastFrame < s.lastTick → c'.lastFrame = c.lastFrame)

/-- **Other channels, the monitor as before.** -/
theorem Inv.withChannels {s : System} (h : Inv s) {channels : Keyed Watched}
    (hchannels : ∀ id c, channels.get id = some c → AsBefore s id c) :
    Inv { s with channels := channels } where
  lastTick := h.lastTick
  times id c hc := (hchannels id c hc).times
  errors := h.errors
  idle id t c ht hc hrunning hsince := by
    obtain ⟨c', hc', hrunning', hsame, hframe⟩ := (hchannels id c hc).idle hrunning hsince
    obtain ⟨hrun, hlast⟩ := h.idle id t c' ht hc' hrunning' (hsame ▸ hsince)
    exact ⟨hsame ▸ hrun, fun hlt => hframe hlt ▸ hlast (hframe hlt ▸ hlt)⟩
  recoveries := h.recoveries
  pending := h.pending

/-- A channel that is what it was. -/
theorem Inv.asBefore {s : System} (h : Inv s) {id : ℤ} {c : Watched}
    (hc : s.channels.get id = some c) : AsBefore s id c where
  times := h.times id c hc
  idle hrunning _ := ⟨c, hc, hrunning, rfl, fun _ => rfl⟩

/-- One channel is changed. -/
theorem Inv.modify {s : System} (h : Inv s) (id : ℤ) {f : Watched → Watched}
    (hf : ∀ c, s.channels.get id = some c → AsBefore s id (f c)) :
    Inv { s with channels := s.channels.modify id f } := by
  refine h.withChannels fun id' c hc => ?_
  rw [Keyed.get_modify] at hc
  split at hc
  · next hid =>
      subst hid
      obtain ⟨c₀, hc₀, rfl⟩ := Option.map_eq_some_iff.mp hc
      exact hf c₀ hc₀
  · exact h.asBefore hc

theorem asBefore_enter {s : System} (h : Inv s) {id : ℤ} {c : Watched}
    (hc : s.channels.get id = some c) (state : ChannelState) :
    AsBefore s id (c.enter s.now state) := by
  obtain ⟨hsince, hframe⟩ := h.times id c hc
  constructor
  · rw [Watched.enter]
    split
    · exact ⟨le_rfl, hframe⟩
    · exact ⟨hsince, hframe⟩
  · rintro (rfl : state = .running) hlt
    by_cases hrunning : c.state = .running
    · refine ⟨c, hc, hrunning, ?_, fun _ => rfl⟩
      rw [Watched.enter, if_neg fun hne => hne.2 hrunning]
    · -- it entered the state after the last tick
      rw [Watched.enter, if_pos ⟨rfl, hrunning⟩] at hlt
      exact absurd h.lastTick (not_le.mpr hlt)

theorem Inv.stopChannel {s : System} (h : Inv s) (id : ℤ) : Inv (s.stopChannel id) := by
  refine h.modify id fun c hc => ?_
  split
  · exact asBefore_enter h hc .stopping
  · exact h.asBefore hc

/-! ### A tick -/

section Tick
variable {s : System} {order : WalkOrder} {status : ChannelStatus}

/-- A tracker from before a tick, or a new one. -/
theorem trackerAt_cases (m : ChannelMonitor) (now : ℕ) (id : ℤ) :
    m.trackers id = some (m.trackerAt now id) ∨
      m.trackerAt now id = { lastProgressTime := now, startTime := now } := by
  rw [ChannelMonitor.trackerAt]
  cases m.trackers id with
  | none => exact .inr rfl
  | some t => exact .inl rfl

/-- **The errors that are counted were seen one tick after the other.** -/
theorem errors_tick (h : Inv s) (hseen : s.SeenInOrder status)
    (hmem : status ∈ getAllStatus s.channels order) :
    ErrorsFor (getAllStatus s.channels order :: s.reports)
      (s.monitor.lookAt s.now status).consecutiveErrors status.id := by
  obtain ⟨t, ht⟩ : ∃ t, t = s.monitor.trackerAt s.now status.id := ⟨_, rfl⟩
  -- what was counted before this tick
  have hbefore : ErrorsFor s.reports (if t.progressed status then 0 else t.consecutiveErrors)
      status.id := by
    split
    · exact errorsFor_zero _ _
    · rcases trackerAt_cases s.monitor s.now status.id with hsome | hnew
      · exact h.errors _ t (ht ▸ hsome)
      · rw [ht, hnew]
        exact errorsFor_zero _ _
  rw [ChannelMonitor.lookAt_consecutiveErrors, ← ht]
  by_cases herror : status.state = .error
  · rw [if_pos herror]
    exact hbefore.cons hmem herror
  · have hzero : (if t.progressed status then 0 else t.consecutiveErrors) = 0 := by
      split
      · rfl
      · next hprogress =>
          rcases trackerAt_cases s.monitor s.now status.id with hsome | hnew
          · exact (hseen t (ht ▸ hsome) (eq_false_of_ne_true hprogress)).1 herror
          · rw [ht, hnew]
    rw [if_neg herror, hzero]
    exact errorsFor_zero _ _

/-- **A running channel has run without a frame since at most a second after the last progress that
its tracker has after the tick.** -/
theorem idle_tick (h : Inv s) (hseen : s.SeenInOrder status) {c : Watched}
    (hc : s.channels.get status.id = some c) (hrunning : c.state = .running) :
    c.runningSince ≤ (s.monitor.lookAt s.now status).lastProgressTime + second ∧
      c.lastFrame ≤ (s.monitor.lookAt s.now status).lastProgressTime + second := by
  obtain ⟨hsince, hframe⟩ := h.times _ c hc
  obtain ⟨t, ht⟩ : ∃ t, t = s.monitor.trackerAt s.now status.id := ⟨_, rfl⟩
  rw [ChannelMonitor.lookAt_lastProgressTime, ← ht]
  split
  · omega
  · next hprogress =>
      rcases trackerAt_cases s.monitor s.now status.id with hsome | hnew
      · rw [← ht] at hsome
        obtain ⟨hkeptSince, hkeptFrame⟩ :=
          (hseen t hsome (eq_false_of_ne_true hprogress)).2 c hc hrunning
        have hidle := h.idle _ t c hsome hc hrunning
        rcases hkeptSince with hold | hnear
        · obtain ⟨hrun, hlast⟩ := hidle hold
          exact ⟨hrun, hkeptFrame.elim hlast id⟩
        · refine ⟨hnear, hkeptFrame.elim (fun hlt => ?_) id⟩
          by_cases hold : c.runningSince < s.lastTick
          · exact (hidle hold).2 hlt
          · omega
      · rw [ht, hnew]
        exact ⟨hsince.trans (Nat.le_add_right _ _), hframe.trans (Nat.le_add_right _ _)⟩

theorem Inv.tick (h : Inv s)
    (hseen : ∀ status ∈ getAllStatus s.channels order, s.SeenInOrder status) :
    Inv (s.tick order) := by
  obtain ⟨statuses, hstatuses⟩ : ∃ l, l = getAllStatus s.channels order := ⟨_, rfl⟩
  have hnodup : (statuses.map (·.id)).Nodup := hstatuses ▸ nodup_getAllStatus s.channels order
  -- a tracker that is there afterwards is that of a channel that was seen
  have htracker : ∀ id t, (s.monitor.poll s.now statuses).1.trackers id = some t →
      ∃ status ∈ statuses, status.id = id ∧ t = s.monitor.lookAt s.now status := by
    intro id t ht
    by_cases hid : id ∈ statuses.map (·.id)
    · obtain ⟨status, hstatus, rfl⟩ := List.mem_map.mp hid
      refine ⟨status, hstatus, rfl, Option.some.inj ?_⟩
      exact ht.symm.trans (ChannelMonitor.poll_trackers hnodup hstatus)
    · rw [ChannelMonitor.poll_trackers_of_notMem hnodup hid] at ht
      cases ht
  subst hstatuses
  constructor
  · exact le_rfl
  · exact h.times
  · intro id t ht
    obtain ⟨status, hstatus, rfl, rfl⟩ := htracker id t ht
    exact errors_tick h (hseen status hstatus) hstatus
  · intro id t c ht hc hrunning _
    obtain ⟨status, hstatus, rfl, rfl⟩ := htracker id t ht
    obtain ⟨hsince, hframe⟩ := idle_tick h (hseen status hstatus) hc hrunning
    exact ⟨hsince, fun _ => hframe⟩
  · intro id t ht hprocessed
    obtain ⟨status, hstatus, rfl, rfl⟩ := htracker id t ht
    rw [ChannelMonitor.lookAt_recoveryAttempts]
    rcases trackerAt_cases s.monitor s.now status.id with hsome | hnew
    · exact h.recoveries _ _ hsome hprocessed
    · rw [hnew]
      exact Nat.zero_le _
  · exact fun _ _ => List.not_mem_nil

/-- **A tick that is in order chooses for good reason.** -/
theorem chosen_tick (h : Inv s)
    (hseen : ∀ status ∈ getAllStatus s.channels order, s.SeenInOrder status) {id : ℤ}
    (hid : id ∈ (s.monitor.poll s.now (getAllStatus s.channels order)).2) :
    ErrorsFor (getAllStatus s.channels order :: s.reports) s.monitor.errorThreshold.toNat id ∨
      s.IdleFor s.monitor.stallTimeoutSeconds id := by
  rw [ChannelMonitor.poll_candidates (nodup_getAllStatus _ _)] at hid
  obtain ⟨status, hstatus, rfl⟩ := List.mem_map.mp hid
  obtain ⟨hmem, hcandidate⟩ := List.mem_filter.mp hstatus
  rcases ChannelMonitor.of_isCandidate hcandidate with ⟨-, hcount⟩ | hstalled
  · exact .inl ((errors_tick h (hseen status hmem) hmem).mono (Int.toNat_le.mpr hcount))
  · obtain ⟨c, hc, hstate, -⟩ := mem_getAllStatus hmem
    have hrunning := hstate.symm.trans (ChannelMonitor.running_of_isStalled hstalled)
    obtain ⟨hnowSince, hnowFrame⟩ := h.times _ c hc
    obtain ⟨hsince, hframe⟩ := idle_tick h (hseen status hmem) hc hrunning
    exact .inr ⟨c, hc, hrunning, ChannelMonitor.add_le_of_isStalled hstalled hnowSince hsince,
      ChannelMonitor.add_le_of_isStalled hstalled hnowFrame hframe⟩

end Tick

/-! ### A recovery -/

theorem Inv.ofPending {s : System} (h : Inv s) {phase : Phase} (hids : phase.ids ⊆ s.phase.ids) :
    Inv { s with phase := phase } :=
  ⟨h.lastTick, h.times, h.errors, h.idle, h.recoveries, fun id hid => h.pending id (hids hid)⟩

theorem Inv.attempt {s : System} (h : Inv s) {id : ℤ} {rest : List ℤ}
    (hphase : s.phase = .recovering (id :: rest)) : Inv (s.attempt id rest) := by
  have hstopping : (Phase.stopping id rest).ids ⊆ s.phase.ids := by
    rw [hphase]
    exact List.Subset.refl _
  rw [System.attempt]
  split
  · next hgoes =>
      refine ⟨h.lastTick, h.times, fun id' t' ht' => ?_, fun id' t' c ht' hc hrunning hlt => ?_,
        fun id' t' ht' hprocessed => ?_, fun id' hid => h.pending id' (hstopping hid)⟩
      all_goals
        rcases ChannelMonitor.attemptRecovery_trackers hgoes ht' with
          ⟨rfl, t, ht, rfl⟩ | ⟨hne, ht'⟩
      · exact errorsFor_zero _ _
      · exact h.errors id' t' ht'
      · obtain ⟨hsince, hframe⟩ := h.times id' c hc
        exact ⟨hsince.trans (Nat.le_add_right _ _), fun _ => hframe.trans (Nat.le_add_right _ _)⟩
      · exact h.idle id' t' c ht' hc hrunning hlt
      · simp only [Function.update_self]
        rw [ht, Option.any_some] at hprocessed
        by_cases hfirst : t.recoveryAttempts = 0
        · rw [ChannelTracker.noteRecovery, hfirst]
          exact Nat.succ_le_succ (Nat.zero_le _)
        · rw [if_neg (by simpa using hfirst)] at hprocessed
          exact Nat.succ_le_succ (h.recoveries id' t ht hprocessed)
      · simp only [Function.update_of_ne hne]
        refine h.recoveries id' t' ht' ?_
        split at hprocessed
        · exact (Function.update_of_ne hne _ _).symm.trans hprocessed
        · exact hprocessed
  · refine h.ofPending ?_
    rw [hphase]
    exact List.subset_cons_self _ _

/-! ### Runs -/

theorem Inv.step {s : System} (h : Inv s) {event : Event} (hevent : s.Orderly event) :
    Inv (s.step event) := by
  cases event with
  | elapse ns =>
      refine ⟨h.lastTick.trans (Nat.le_add_right _ _), fun id c hc => ?_, h.errors, h.idle,
        h.recoveries, h.pending⟩
      obtain ⟨hsince, hframe⟩ := h.times id c hc
      exact ⟨hsince.trans (Nat.le_add_right _ _), hframe.trans (Nat.le_add_right _ _)⟩
  | create id =>
      refine h.withChannels fun id' c hc => ?_
      by_cases hid : id' = id
      · rw [hid, Keyed.get_put_self] at hc
        obtain rfl := Option.some.inj hc
        exact ⟨⟨Nat.zero_le _, Nat.zero_le _⟩, fun hrunning => nomatch hrunning⟩
      · rw [Keyed.get_put_of_ne _ _ hid] at hc
        exact h.asBefore hc
  | delete id =>
      refine h.withChannels fun id' c hc => ?_
      by_cases hid : id' = id
      · rw [hid, Keyed.get_remove_self] at hc
        cases hc
      · rw [Keyed.get_remove_of_ne _ hid] at hc
        exact h.asBefore hc
  | enter id state => exact h.modify id fun c hc => asBefore_enter h hc state
  | frame id =>
      have hprocess := h.modify id (f := (·.process s.now)) fun c hc =>
        ⟨⟨(h.times id c hc).1, le_rfl⟩, fun hrunning _ => ⟨c, hc, hrunning, rfl, fun hlt =>
          absurd h.lastTick (not_le.mpr hlt)⟩⟩
      refine ⟨hprocess.lastTick, hprocess.times, hprocess.errors, hprocess.idle,
        fun id' t ht hprocessed => ?_, hprocess.pending⟩
      by_cases hid : id' = id
      · rw [hid] at hprocessed
        exact absurd ((Function.update_self ..).symm.trans hprocessed) (by decide)
      · have hsame : s.processed id' = false := (Function.update_of_ne hid ..).symm.trans hprocessed
        exact (h.recoveries id' t ht hsame).trans_eq (Function.update_of_ne hid _ _).symm
  | rebuild id =>
      refine h.modify id fun c hc => ?_
      exact ⟨h.times id c hc, fun hrunning _ => ⟨c, hc, hrunning, rfl, fun _ => rfl⟩⟩
  | userStop id =>
      have hstop := h.stopChannel id
      refine ⟨hstop.lastTick, hstop.times, hstop.errors, hstop.idle, hstop.recoveries, ?_⟩
      intro id' hid hstopped
      rcases List.mem_cons.mp hstopped with rfl | hstopped
      · exact hevent hid
      · exact h.pending id' hid hstopped
  | setAutoRecovery enable => exact ⟨h.lastTick, h.times, h.errors, h.idle, h.recoveries, h.pending⟩
  | setErrorThreshold threshold =>
      exact ⟨h.lastTick, h.times, h.errors, h.idle, h.recoveries, h.pending⟩
  | setStallTimeout seconds =>
      exact ⟨h.lastTick, h.times, h.errors, h.idle, h.recoveries, h.pending⟩
  | tick order =>
      simp only [System.step]
      split
      · next hphase => exact h.tick (hevent (by rw [hphase]; rfl))
      · exact h
  | attempt =>
      simp only [System.step]
      split
      · next id rest hphase => exact h.attempt hphase
      · exact h
  | recoveryStop =>
      simp only [System.step]
      split
      · next id rest hphase =>
          refine (h.stopChannel id).ofPending ?_
          show id :: rest ⊆ s.phase.ids
          rw [hphase]
          exact List.Subset.refl _
      · exact h
  | recoveryStart =>
      simp only [System.step]
      split
      · next id rest hphase =>
          refine h.ofPending ?_
          rw [hphase]
          exact List.subset_cons_self _ _
      · exact h

/-- **What a step that is in order does for good reason.** -/
theorem Inv.warranted {s : System} (h : Inv s) {event : Event} (hevent : s.Orderly event) :
    s.Warranted event := by
  cases event with
  | tick order => exact fun hidle id hid => chosen_tick h (hevent hidle) hid
  | attempt =>
      intro id hid hgiven
      obtain ⟨t, ht, hmax⟩ := ChannelMonitor.attemptRecovery_givesUp hgiven
      have hprocessed := (hevent id hid t ht).resolve_left (not_lt.mpr hmax)
      exact hmax.trans (h.recoveries id t ht hprocessed)
  | recoveryStart =>
      intro id hid
      refine h.pending id ?_
      match s.phase, hid with
      | .starting _ _, hid =>
          obtain rfl := Option.some.inj hid
          exact List.mem_cons_self
  | _ => trivial

/-- **In a run whose steps are in order the monitor acts only where it is needed.** -/
theorem warranted_of_orderly {events : List Event} (h : EveryStep step Orderly {} events) :
    EveryStep step Warranted {} events :=
  h.of_invariant (fun _ _ h hevent => h.step hevent) (fun _ _ h hevent => h.warranted hevent)
    inv_start

/-- The channels in the order of their numbers. -/
def inOrder : WalkOrder := ⟨id, fun _ => .refl _⟩

/-- A channel that fails at three ticks, and its recovery. -/
theorem warranted_failing :
    EveryStep step Warranted {} [.setAutoRecovery true, .create 0, .enter 0 .error, .tick inOrder,
      .elapse (3 * second), .tick inOrder, .elapse (3 * second), .tick inOrder, .attempt,
      .recoveryStop, .recoveryStart, .enter 0 .running, .frame 0, .elapse (3 * second),
      .tick inOrder] :=
  warranted_of_orderly (by decide)

/-- A channel that is stopped for a minute is taken for stalled when it is started again. -/
theorem warranted_refuted :
    ¬ EveryStep step Warranted {} [.setAutoRecovery true, .create 0, .enter 0 .running,
      .tick inOrder, .userStop 0, .enter 0 .stopped, .elapse (60 * second), .enter 0 .running,
      .tick inOrder] := by
  decide

end System

end LoongNvr.Channel
