import LoongNvr.Channel.ChannelManager
import Mathlib.Logic.Function.Basic

/-!
# Channel — ChannelMonitor

The monitor looks at all channels from time to time, keeps a tracker for each, and chooses the
channels that are to be recovered.  Times are in nanoseconds of the steady clock.

* `poll`: what `MonitorLoop` does under its lock.
* `poll_trackers`, `poll_candidates`: each channel is treated by itself.
* `attemptRecovery`: what `AttemptRecovery` does under the lock, before the channel is stopped and
  started.
-/

namespace LoongNvr.Channel
open Support

/-- The status of a channel. -/
structure ChannelStatus where
  id : ℤ := -1
  name : String := ""
  state : ChannelState := .created
  fpsIn : ℤ := 0
  fpsDecode : ℤ := 0
  fpsAi : ℤ := 0
  framesProcessed : ℤ := 0
  framesDropped : ℤ := 0

/-- The health of a channel. -/
structure ChannelMetrics where
  channelId : ℤ := -1
  state : ChannelState := .created
  fpsIn : ℤ := 0
  fpsDecode : ℤ := 0
  fpsAi : ℤ := 0
  framesProcessed : ℤ := 0
  framesDropped : ℤ := 0
  isHealthy : Bool := true
  consecutiveErrors : ℕ := 0
  recoveryAttempts : ℕ := 0
  uptimeSeconds : ℕ := 0

/-- What the monitor remembers of a channel from one look to the next. -/
structure ChannelTracker where
  prevFramesProcessed : ℤ := 0
  prevFramesDropped : ℤ := 0
  lastProgressTime : ℕ
  startTime : ℕ
  consecutiveErrors : ℕ := 0
  recoveryAttempts : ℕ := 0

structure ChannelMonitor where
  latestMetrics : ℤ → Option ChannelMetrics := fun _ => none
  trackers : ℤ → Option ChannelTracker := fun _ => none
  intervalSeconds : ℤ := 3
  autoRecovery : Bool := false
  errorThreshold : ℤ := 3
  stallTimeoutSeconds : ℤ := 30

def kMaxRecoveryAttempts : ℕ := 10

/-- A second. -/
def second : ℕ := 1000000000

/-- `ComputeFps` -/
def computeFps (current previous intervalSeconds : ℤ) : ℤ :=
  if intervalSeconds ≤ 0 then 0
  else
    let delta := current - previous
    (if delta < 0 then 0 else delta).tdiv intervalSeconds

namespace ChannelTracker

/-- More frames have been processed than at the last look. -/
def progressed (tracker : ChannelTracker) (status : ChannelStatus) : Bool :=
  status.framesProcessed - tracker.prevFramesProcessed > 0

/-- The progress check, and the counters for the next one. -/
def noteFrames (tracker : ChannelTracker) (now : ℕ) (status : ChannelStatus) : ChannelTracker :=
  let tracker :=
    if tracker.progressed status then
      { tracker with lastProgressTime := now, consecutiveErrors := 0 }
    else tracker
  { tracker with
    prevFramesProcessed := status.framesProcessed, prevFramesDropped := status.framesDropped }

def noteError (tracker : ChannelTracker) (status : ChannelStatus) : ChannelTracker :=
  if status.state = .error then
    { tracker with consecutiveErrors := tracker.consecutiveErrors + 1 }
  else tracker

/-- One recovery more. -/
def noteRecovery (tracker : ChannelTracker) (now : ℕ) : ChannelTracker :=
  { tracker with
    recoveryAttempts := tracker.recoveryAttempts + 1, consecutiveErrors := 0,
    lastProgressTime := now }

end ChannelTracker

namespace ChannelMonitor

def setAutoRecovery (m : ChannelMonitor) (enable : Bool) : ChannelMonitor :=
  { m with autoRecovery := enable }

def setErrorThreshold (m : ChannelMonitor) (threshold : ℤ) : ChannelMonitor :=
  { m with errorThreshold := threshold }

def setStallTimeout (m : ChannelMonitor) (seconds : ℤ) : ChannelMonitor :=
  { m with stallTimeoutSeconds := seconds }

/-- The tracker of a channel, a new one where there is none. -/
def trackerAt (m : ChannelMonitor) (now : ℕ) (id : ℤ) : ChannelTracker :=
  (m.trackers id).getD { lastProgressTime := now, startTime := now }

/-- The tracker of a channel after a look at it. -/
def lookAt (m : ChannelMonitor) (now : ℕ) (status : ChannelStatus) : ChannelTracker :=
  ((m.trackerAt now status.id).noteFrames now status).noteError status

/-- `is_stalled` -/
def isStalled (m : ChannelMonitor) (now : ℕ) (status : ChannelStatus) : Bool :=
  status.state = .running ∧
    m.stallTimeoutSeconds < ((now - (m.lookAt now status).lastProgressTime) / second : ℕ)

def metricsOf (m : ChannelMonitor) (now : ℕ) (status : ChannelStatus) : ChannelMetrics where
  channelId := status.id
  state := status.state
  fpsIn := computeFps status.framesProcessed (m.trackerAt now status.id).prevFramesProcessed
    m.intervalSeconds
  fpsDecode := status.fpsDecode
  fpsAi := status.fpsAi
  framesProcessed := status.framesProcessed
  framesDropped := status.framesDropped
  isHealthy := !decide (status.state = .error) && !m.isStalled now status
  consecutiveErrors := (m.lookAt now status).consecutiveErrors
  recoveryAttempts := (m.lookAt now status).recoveryAttempts
  uptimeSeconds := (now - (m.lookAt now status).startTime) / second

/-- The channel is to be recovered. -/
def isCandidate (m : ChannelMonitor) (now : ℕ) (status : ChannelStatus) : Bool :=
  m.autoRecovery && (decide (status.state = .error) || m.isStalled now status) &&
    (decide (m.errorThreshold ≤ (m.lookAt now status).consecutiveErrors) ||
      m.isStalled now status)

/-- One turn of the loop over the statuses, with the candidates so far. -/
def pollOne (now : ℕ) (acc : ChannelMonitor × List ℤ) (status : ChannelStatus) :
    ChannelMonitor × List ℤ :=
  let m := acc.1
  ({ m with
      trackers := Function.update m.trackers status.id (some (m.lookAt now status))
      latestMetrics := Function.update m.latestMetrics status.id (some (m.metricsOf now status)) },
    if m.isCandidate now status then acc.2 ++ [status.id] else acc.2)

/-- What is kept of channels that are there no longer: nothing. -/
def removeStale (m : ChannelMonitor) (allStatus : List ChannelStatus) : ChannelMonitor :=
  { m with
    trackers := fun id => if id ∈ allStatus.map (·.id) then m.trackers id else none
    latestMetrics := fun id => if id ∈ allStatus.map (·.id) then m.latestMetrics id else none }

/-- A look at all channels, and the ones that are to be recovered. -/
def poll (m : ChannelMonitor) (now : ℕ) (allStatus : List ChannelStatus) :
    ChannelMonitor × List ℤ :=
  allStatus.foldl (pollOne now) (m.removeStale allStatus, [])

/-- `AttemptRecovery`, as far as it goes under the lock, and whether it goes on. -/
def attemptRecovery (m : ChannelMonitor) (now : ℕ) (id : ℤ) : ChannelMonitor × Bool :=
  match m.trackers id with
  | none => (m, true)
  | some tracker =>
      if kMaxRecoveryAttempts ≤ tracker.recoveryAttempts then (m, false)
      else
        ({ m with trackers := Function.update m.trackers id (some (tracker.noteRecovery now)) },
          true)

/-! ### Each channel by itself -/

section Poll
variable {m m' : ChannelMonitor} {now : ℕ} {status : ChannelStatus} {allStatus : List ChannelStatus}

theorem lookAt_congr (h : m.trackers status.id = m'.trackers status.id) :
    m.lookAt now status = m'.lookAt now status := by
  rw [lookAt, lookAt, trackerAt, trackerAt, h]

/-- The look at a channel is another's business only through the settings. -/
theorem isCandidate_pollOne {acc : ChannelMonitor × List ℤ} {other : ChannelStatus}
    (h : other.id ≠ status.id) :
    (pollOne now acc status).1.lookAt now other = acc.1.lookAt now other ∧
      (pollOne now acc status).1.isCandidate now other = acc.1.isCandidate now other := by
  have hlook : (pollOne now acc status).1.lookAt now other = acc.1.lookAt now other :=
    lookAt_congr (Function.update_of_ne h _ _)
  refine ⟨hlook, ?_⟩
  simp only [isCandidate, isStalled, hlook]
  rfl

theorem foldl_pollOne (hnodup : (allStatus.map (·.id)).Nodup) (acc : ChannelMonitor × List ℤ) :
    (∀ status ∈ allStatus, (allStatus.foldl (pollOne now) acc).1.trackers status.id =
        some (acc.1.lookAt now status)) ∧
      (∀ id ∉ allStatus.map (·.id),
        (allStatus.foldl (pollOne now) acc).1.trackers id = acc.1.trackers id) ∧
      (allStatus.foldl (pollOne now) acc).2 =
        acc.2 ++ (allStatus.filter (acc.1.isCandidate now)).map (·.id) := by
  induction allStatus generalizing acc with
  | nil => exact ⟨fun _ h => absurd h List.not_mem_nil, fun _ _ => rfl, (List.append_nil _).symm⟩
  | cons first rest ih =>
      obtain ⟨hfirst, hrest⟩ := List.nodup_cons.mp hnodup
      obtain ⟨hlooked, hothers, hcandidates⟩ := ih hrest (pollOne now acc first)
      have hne : ∀ status ∈ rest, status.id ≠ first.id := fun status hstatus h =>
        hfirst (List.mem_map.mpr ⟨status, hstatus, h⟩)
      refine ⟨List.forall_mem_cons.mpr ⟨?_, fun status hstatus => ?_⟩, fun id hid => ?_, ?_⟩
      · exact (hothers first.id hfirst).trans (Function.update_self ..)
      · exact (hlooked status hstatus).trans
          (congrArg some (isCandidate_pollOne (hne status hstatus)).1)
      · obtain ⟨hid, hids⟩ := not_or.mp (mt List.mem_cons.mpr hid)
        exact (hothers id hids).trans (Function.update_of_ne hid _ _)
      · have hfilter : rest.filter ((pollOne now acc first).1.isCandidate now) =
            rest.filter (acc.1.isCandidate now) :=
          List.filter_congr fun status hstatus => (isCandidate_pollOne (hne status hstatus)).2
        rw [List.foldl_cons, hcandidates, hfilter, List.filter_cons]
        simp only [pollOne]
        split <;> simp

/-- A look at a channel that is there is not changed by what is forgotten of others. -/
theorem lookAt_removeStale (h : status ∈ allStatus) :
    (m.removeStale allStatus).lookAt now status = m.lookAt now status ∧
      (m.removeStale allStatus).isCandidate now status = m.isCandidate now status := by
  have hlook : (m.removeStale allStatus).lookAt now status = m.lookAt now status :=
    lookAt_congr (if_pos (List.mem_map_of_mem h))
  refine ⟨hlook, ?_⟩
  simp only [isCandidate, isStalled, hlook]
  rfl

/-- **The tracker of each channel after a look at all.** -/
theorem poll_trackers (hnodup : (allStatus.map (·.id)).Nodup) (h : status ∈ allStatus) :
    (m.poll now allStatus).1.trackers status.id = some (m.lookAt now status) := by
  rw [poll, (foldl_pollOne hnodup _).1 status h, (lookAt_removeStale h).1]

theorem poll_trackers_of_notMem (hnodup : (allStatus.map (·.id)).Nodup) {id : ℤ}
    (h : id ∉ allStatus.map (·.id)) : (m.poll now allStatus).1.trackers id = none := by
  rw [poll, (foldl_pollOne hnodup _).2.1 id h]
  exact if_neg h

/-- **The candidates are the channels that are ones by themselves.** -/
theorem poll_candidates (hnodup : (allStatus.map (·.id)).Nodup) :
    (m.poll now allStatus).2 = (allStatus.filter (m.isCandidate now)).map (·.id) := by
  rw [poll, (foldl_pollOne hnodup _).2.2, List.nil_append]
  exact congrArg _ (List.filter_congr fun status h => (lookAt_removeStale h).2)

end Poll

/-! ### A look at one channel -/

section Look
variable {m : ChannelMonitor} {now : ℕ} {status : ChannelStatus}

theorem lookAt_lastProgressTime :
    (m.lookAt now status).lastProgressTime =
      if (m.trackerAt now status.id).progressed status then now
      else (m.trackerAt now status.id).lastProgressTime := by
  simp only [lookAt, ChannelTracker.noteError, ChannelTracker.noteFrames]
  split <;> split <;> rfl

theorem lookAt_recoveryAttempts :
    (m.lookAt now status).recoveryAttempts = (m.trackerAt now status.id).recoveryAttempts := by
  simp only [lookAt, ChannelTracker.noteError, ChannelTracker.noteFrames]
  split <;> split <;> rfl

theorem lookAt_consecutiveErrors :
    (m.lookAt now status).consecutiveErrors =
      (if (m.trackerAt now status.id).progressed status then 0
        else (m.trackerAt now status.id).consecutiveErrors) +
      if status.state = .error then 1 else 0 := by
  simp only [lookAt, ChannelTracker.noteError, ChannelTracker.noteFrames]
  split <;> split <;> rfl

/-- **Why a channel is chosen**: it is in the error state and has been counted often enough, or it
is stalled. -/
theorem of_isCandidate (h : m.isCandidate now status = true) :
    (status.state = .error ∧ m.errorThreshold ≤ (m.lookAt now status).consecutiveErrors) ∨
      m.isStalled now status = true := by
  simp only [isCandidate, Bool.and_eq_true, Bool.or_eq_true, decide_eq_true_eq] at h
  rcases h with ⟨⟨-, herror | hstalled⟩, hcount | hstalled'⟩
  · exact .inl ⟨herror, hcount⟩
  · exact .inr hstalled'
  · exact .inr hstalled
  · exact .inr hstalled

theorem running_of_isStalled (h : m.isStalled now status = true) : status.state = .running :=
  (of_decide_eq_true h).1

/-- What is no later than a second after the last progress that a stalled channel's tracker knows
of is longer ago than the timeout: only whole seconds are counted, and more than the timeout. -/
theorem add_le_of_isStalled (h : m.isStalled now status = true) {t : ℕ} (hnow : t ≤ now)
    (ht : t ≤ (m.lookAt now status).lastProgressTime + second) :
    t + m.stallTimeoutSeconds * second ≤ (now : ℤ) := by
  have hlong := (of_decide_eq_true h).2
  simp only [second] at *
  omega

end Look

/-! ### A recovery -/

section Recovery
variable {m : ChannelMonitor} {now : ℕ} {id : ℤ}

/-- **When a channel is given up.** -/
theorem attemptRecovery_givesUp (h : (m.attemptRecovery now id).2 = false) :
    ∃ t, m.trackers id = some t ∧ kMaxRecoveryAttempts ≤ t.recoveryAttempts := by
  rw [attemptRecovery] at h
  split at h
  · cases h
  · next t ht =>
      split at h
      · next hmax => exact ⟨t, ht, hmax⟩
      · cases h

/-- **The trackers after a recovery has begun.** -/
theorem attemptRecovery_trackers (h : (m.attemptRecovery now id).2 = true) {id' : ℤ}
    {t' : ChannelTracker} (ht' : (m.attemptRecovery now id).1.trackers id' = some t') :
    (id' = id ∧ ∃ t, m.trackers id = some t ∧ t' = t.noteRecovery now) ∨
      (id' ≠ id ∧ m.trackers id' = some t') := by
  rw [attemptRecovery] at h ht'
  split at h
  · next hnone =>
      rw [hnone] at ht'
      refine .inr ⟨fun hid => ?_, ht'⟩
      rw [hid] at ht'
      exact absurd (hnone.symm.trans ht') (by simp)
  · next t ht =>
      split at h
      · cases h
      · next hmax =>
          simp only [ht, if_neg hmax, Function.update_apply] at ht'
          split at ht'
          · next hid => exact .inl ⟨hid, t, ht, (Option.some.inj ht').symm⟩
          · next hid => exact .inr ⟨hid, ht'⟩

end Recovery

end ChannelMonitor

end LoongNvr.Channel
