import LoongNvr.Core.StageQueue
import LoongNvr.Support.Runs
import Mathlib.Algebra.Order.Group.Unbundled.Int
import Mathlib.Data.List.Basic

/-!
# Core — FrameCustody

Where the frames go that are pushed into a `StageQueue`, over any calls before its shutdown.  Pushes
are numbered, and the number is kept in the frame's `origin`, which the queue does not read.

* `push_cases`: a push stores its frame, stores it in the place of another, or refuses it.
* `QueueLog.Conserved.step`: what holds of the log is kept by every call.
* `frames_conserved`: after any calls.
-/

namespace LoongNvr.Core
open Support

/-- The calls before a shutdown. -/
inductive QueueCall
  | push (frame : Frame)
  | pop
  | popBatch (maxBatch : ℕ)
  | setCapacity (capacity : ℕ)

/-- A queue with what has become of its frames. -/
structure QueueLog where
  queue : StageQueue
  /-- How many frames have been pushed. -/
  pushes : ℕ := 0
  /-- The frames whose push returned true. -/
  accepted : List Frame := []
  popped : List Frame := []
  evicted : List Frame := []
  /-- How many pushes returned false. -/
  refused : ℕ := 0
  /-- The largest capacity so far. -/
  largest : ℕ

namespace QueueLog

/-- A queue of this capacity, as it is made. -/
def start (capacity : ℕ) : QueueLog where
  queue := { capacity := capacity }
  largest := capacity

/-- A frame with the number of its push. -/
def numbered (s : QueueLog) (frame : Frame) : Frame := { frame with origin := s.pushes }

/-- The frames that are in the queue before a push and not after it. -/
def evictedBy (s : QueueLog) (frame : Frame) : List Frame :=
  s.queue.queue.filter fun other =>
    !((s.queue.push (s.numbered frame)).1.queue.map (·.origin)).contains other.origin

/-- One call. -/
def step (s : QueueLog) : QueueCall → QueueLog
  | .push frame =>
      let (queue, ok) := s.queue.push (s.numbered frame)
      { s with
        queue := queue
        pushes := s.pushes + 1
        accepted := if ok then s.accepted ++ [s.numbered frame] else s.accepted
        evicted := s.evicted ++ s.evictedBy frame
        refused := if ok then s.refused else s.refused + 1 }
  | .pop =>
      match s.queue.pop with
      | some (frame, queue) => { s with queue := queue, popped := s.popped ++ [frame] }
      | none => s
  | .popBatch maxBatch =>
      let (batch, queue) := s.queue.popBatch maxBatch
      { s with queue := queue, popped := s.popped ++ batch }
  | .setCapacity capacity =>
      { s with queue := s.queue.setCapacity capacity, largest := max s.largest capacity }

/-- What holds of the log between calls. -/
structure Conserved (s : QueueLog) : Prop where
  running : s.queue.shutdown = false
  /-- Each frame accepted is popped, evicted or queued. -/
  custody : s.accepted.Perm (s.popped ++ s.evicted ++ s.queue.queue)
  order : (s.popped ++ s.queue.queue).Sublist s.accepted
  increasing : (s.accepted.map (·.origin)).Pairwise (· < ·)
  below : ∀ frame ∈ s.accepted, frame.origin < s.pushes
  keyframes : ∀ frame ∈ s.evicted, frame.info.isKeyframe = false
  dropped : s.queue.droppedCount = s.evicted.length + s.refused
  fits : s.queue.queue.length ≤ s.largest
  capacity_le : s.queue.capacity ≤ s.largest

end QueueLog

/-! ### One push -/

/-- What a push into a running queue does. -/
inductive Pushed (q : StageQueue) (frame : Frame) : StageQueue × Bool → Prop
  | stored (hroom : q.queue.length < q.capacity) :
      Pushed q frame ({ q with queue := q.queue ++ [frame] }, true)
  | replaced (front : List Frame) (old : Frame) (rest : List Frame)
      (hqueue : q.queue = front ++ old :: rest) (hkey : old.info.isKeyframe = false)
      (hchannel : (∃ other ∈ q.queue, other.channelId = frame.channelId ∧
        other.info.isKeyframe = false) → old.channelId = frame.channelId) :
      Pushed q frame ({ q with
        queue := front ++ rest ++ [frame]
        droppedCount := q.droppedCount + 1 }, true)
  | refused (hfull : q.capacity ≤ q.queue.length)
      (hkeys : ∀ other ∈ q.queue, other.info.isKeyframe = true) :
      Pushed q frame ({ q with droppedCount := q.droppedCount + 1 }, false)

/-- What goes when the first frame that fits a test is erased. -/
theorem exists_erased {l : List Frame} {p : Frame → Bool} (h : l.any p = true) :
    ∃ front old rest, l = front ++ old :: rest ∧ p old = true ∧ l.eraseP p = front ++ rest := by
  obtain ⟨frame, hmem, hp⟩ := List.any_eq_true.mp h
  obtain ⟨old, front, rest, -, hold, hqueue, herase⟩ := List.exists_of_eraseP hmem hp
  exact ⟨front, old, rest, hqueue, hold, herase⟩

/-- **A push** stores its frame, stores it in the place of another, or refuses it. -/
theorem push_cases {q : StageQueue} (frame : Frame) (hrunning : q.shutdown = false) :
    Pushed q frame (q.push frame) := by
  rw [StageQueue.push, if_neg (by simp [hrunning])]
  by_cases hfull : q.queue.length ≥ q.capacity
  · rw [if_pos hfull]
    by_cases hsame : q.queue.any (StageQueue.droppableOf frame.channelId) = true
    · rw [if_pos hsame]
      obtain ⟨front, old, rest, hqueue, hold, herase⟩ := exists_erased hsame
      obtain ⟨hchannel, hkey⟩ := Bool.and_eq_true_iff.mp hold
      rw [herase]
      exact .replaced front old rest hqueue (by simpa using hkey)
        fun _ => of_decide_eq_true hchannel
    · rw [if_neg hsame]
      by_cases hany : q.queue.any StageQueue.droppable = true
      · rw [if_pos hany]
        obtain ⟨front, old, rest, hqueue, hold, herase⟩ := exists_erased hany
        rw [herase]
        refine .replaced front old rest hqueue (by simpa [StageQueue.droppable] using hold) ?_
        -- no frame of the channel could be dropped
        rintro ⟨other, hother, hchannel, hkey⟩
        refine absurd (List.any_eq_true.mpr ⟨other, hother, ?_⟩) hsame
        simp [StageQueue.droppableOf, hchannel, hkey]
      · rw [if_neg hany]
        refine .refused hfull fun other hother => ?_
        by_contra hkey
        refine hany (List.any_eq_true.mpr ⟨other, hother, ?_⟩)
        simpa [StageQueue.droppable] using hkey
  · rw [if_neg hfull]
    exact .stored (not_le.mp hfull)

namespace QueueLog

variable {s : QueueLog}

/-- A push that is not in the place of another evicts nothing. -/
theorem evictedBy_eq_nil {frame : Frame}
    (h : ∀ other ∈ s.queue.queue, other ∈ (s.queue.push (s.numbered frame)).1.queue) :
    s.evictedBy frame = [] := by
  refine List.filter_eq_nil_iff.mpr fun other hother => ?_
  simp only [Bool.not_eq_true', Bool.not_eq_false, List.contains_eq_mem, decide_eq_true_eq]
  exact List.mem_map_of_mem (h other hother)

theorem Conserved.queue_numbers (h : s.Conserved) :
    (s.queue.queue.map (·.origin)).Pairwise (· < ·) ∧
      ∀ frame ∈ s.queue.queue, frame.origin < s.pushes := by
  have hsub : s.queue.queue.Sublist s.accepted := (List.sublist_append_right _ _).trans h.order
  exact ⟨h.increasing.sublist (hsub.map _), fun frame hframe => h.below frame (hsub.subset hframe)⟩

/-- What a push evicts is the frame that makes room for its own. -/
theorem evictedBy_eq_singleton (h : s.Conserved) {frame old : Frame} {front rest : List Frame}
    (hqueue : s.queue.queue = front ++ old :: rest)
    (hpush : (s.queue.push (s.numbered frame)).1.queue = front ++ rest ++ [s.numbered frame]) :
    s.evictedBy frame = [old] := by
  obtain ⟨hnumbers, hbelow⟩ := h.queue_numbers
  have hold : ∀ other ∈ front ++ rest, other.origin ≠ old.origin := by
    rw [hqueue, List.map_append, List.map_cons] at hnumbers
    obtain ⟨-, hrest, hfront⟩ := List.pairwise_append.mp hnumbers
    intro other hother
    rcases List.mem_append.mp hother with hother | hother
    · exact (hfront _ (List.mem_map_of_mem hother) _ List.mem_cons_self).ne
    · exact ((List.pairwise_cons.mp hrest).1 _ (List.mem_map_of_mem hother)).ne'
  set gone : Frame → Bool := fun other =>
    !((front ++ rest ++ [s.numbered frame]).map (·.origin)).contains other.origin with hgoneDef
  have hgone : gone old = true := by
    simp only [hgoneDef, Bool.not_eq_true', List.contains_eq_mem, decide_eq_false_iff_not,
      List.mem_map]
    rintro ⟨other, hother, horigin⟩
    rcases List.mem_append.mp hother with hother | hother
    · exact hold other hother horigin
    · obtain rfl := List.mem_singleton.mp hother
      have := hbelow old (by rw [hqueue]; exact List.mem_append_right _ List.mem_cons_self)
      exact this.ne' horigin
  have hstay : ∀ other ∈ front ++ rest, ¬ gone other = true := by
    intro other hother
    simp only [hgoneDef, Bool.not_eq_true', Bool.not_eq_false, List.contains_eq_mem,
      decide_eq_true_eq]
    exact List.mem_map_of_mem (List.mem_append_left _ hother)
  have hfront : front.filter gone = [] :=
    List.filter_eq_nil_iff.mpr fun other hother => hstay other (List.mem_append_left _ hother)
  have hrest : rest.filter gone = [] :=
    List.filter_eq_nil_iff.mpr fun other hother => hstay other (List.mem_append_right _ hother)
  have hfilter : s.evictedBy frame = (front ++ old :: rest).filter gone := by
    rw [evictedBy, hpush, hqueue]
  rw [hfilter, List.filter_append, List.filter_cons_of_pos hgone, hfront, hrest, List.nil_append]

/-! ### The calls -/

theorem Conserved.start (capacity : ℕ) : (start capacity).Conserved where
  running := rfl
  custody := .nil
  order := .slnil
  increasing := .nil
  below _ h := by cases h
  keyframes _ h := by cases h
  dropped := rfl
  fits := Nat.zero_le _
  capacity_le := le_rfl

/-- A frame accepted has the largest number. -/
theorem Conserved.increasing_concat (h : s.Conserved) (frame : Frame) :
    ((s.accepted ++ [s.numbered frame]).map (·.origin)).Pairwise (· < ·) ∧
      ∀ other ∈ s.accepted ++ [s.numbered frame], other.origin < (s.pushes + 1 : ℕ) := by
  constructor
  · rw [List.map_append, List.map_singleton]
    refine List.pairwise_append.mpr ⟨h.increasing, List.pairwise_singleton _ _, ?_⟩
    intro n hn n' hn'
    obtain ⟨other, hother, rfl⟩ := List.mem_map.mp hn
    obtain rfl := List.mem_singleton.mp hn'
    exact h.below other hother
  · intro other hother
    rcases List.mem_append.mp hother with hother | hother
    · have := h.below other hother
      push_cast
      omega
    · obtain rfl := List.mem_singleton.mp hother
      simp only [numbered]
      push_cast
      omega

theorem Conserved.push (h : s.Conserved) (frame : Frame) : (s.step (.push frame)).Conserved := by
  obtain ⟨hincreasing, hbelow⟩ := h.increasing_concat frame
  have hcases := push_cases (s.numbered frame) h.running
  cases hp : s.queue.push (s.numbered frame) with
  | mk q ok =>
    rw [hp] at hcases
    cases hcases with
    | stored hroom =>
        have hnone : s.evictedBy frame = [] := evictedBy_eq_nil fun other hother => by
          rw [hp]
          exact List.mem_append_left _ hother
        simp only [step, hp, hnone, List.append_nil, if_true]
        refine ⟨h.running, ?_, ?_, hincreasing, hbelow, h.keyframes, h.dropped, ?_, h.capacity_le⟩
        · have hcustody := h.custody.append_right [s.numbered frame]
          rwa [List.append_assoc] at hcustody
        · have horder := h.order.append_right [s.numbered frame]
          rwa [List.append_assoc] at horder
        · rw [List.length_append, List.length_singleton]
          exact (Nat.succ_le_of_lt hroom).trans h.capacity_le
    | replaced front old rest hqueue hkey hchannel =>
        have hone : s.evictedBy frame = [old] :=
          evictedBy_eq_singleton h hqueue (by rw [hp])
        simp only [step, hp, hone, if_true]
        refine ⟨h.running, ?_, ?_, hincreasing, hbelow, ?_, ?_, ?_, h.capacity_le⟩
        · have hmove : (front ++ old :: rest).Perm (old :: (front ++ rest)) := List.perm_middle
          have hcustody := (h.custody.trans (hqueue ▸ hmove.append_left _)).append_right
            [s.numbered frame]
          simpa only [List.append_assoc, List.singleton_append, List.cons_append,
            List.nil_append] using hcustody
        · have hsub : (s.popped ++ (front ++ rest)).Sublist s.accepted := by
            refine List.Sublist.trans (List.Sublist.append_left ?_ _) (hqueue ▸ h.order)
            exact List.Sublist.append_left (List.sublist_cons_self old rest) front
          have horder := hsub.append_right [s.numbered frame]
          rwa [List.append_assoc] at horder
        · intro other hother
          rcases List.mem_append.mp hother with hother | hother
          · exact h.keyframes other hother
          · exact List.mem_singleton.mp hother ▸ hkey
        · dsimp only
          rw [h.dropped, List.length_append, List.length_singleton]
          omega
        · have hfits := h.fits
          rw [hqueue] at hfits
          simp only [List.length_append, List.length_cons, List.length_nil] at hfits ⊢
          omega
    | refused hfull hkeys =>
        have hnone : s.evictedBy frame = [] := evictedBy_eq_nil fun other hother => by
          rw [hp]
          exact hother
        simp only [step, hp, hnone, List.append_nil, Bool.false_eq_true, if_false]
        refine ⟨h.running, h.custody, h.order, h.increasing, fun other hother => ?_, h.keyframes,
          ?_, h.fits, h.capacity_le⟩
        · have := h.below other hother
          push_cast
          omega
        · dsimp only
          rw [h.dropped]
          omega

/-- Frames leave at the front. -/
theorem Conserved.take (h : s.Conserved) (n : ℕ) :
    Conserved { s with
      queue := { s.queue with queue := s.queue.queue.drop n }
      popped := s.popped ++ s.queue.queue.take n } := by
  refine ⟨h.running, ?_, ?_, h.increasing, h.below, h.keyframes, h.dropped, ?_, h.capacity_le⟩
  · -- what is popped passes by what was evicted
    have hswap : (s.evicted ++ s.queue.queue.take n).Perm (s.queue.queue.take n ++ s.evicted) :=
      List.perm_append_comm
    have hmove := (hswap.append_left s.popped).append_right (s.queue.queue.drop n)
    refine h.custody.trans (List.Perm.trans (List.Perm.of_eq ?_) (hmove.trans (.of_eq ?_)))
    · simp only [List.append_assoc, List.take_append_drop]
    · simp only [List.append_assoc]
  · dsimp only
    rw [List.append_assoc, List.take_append_drop]
    exact h.order
  · exact (List.drop_sublist n _).length_le.trans h.fits

/-- **Every call** keeps it. -/
theorem Conserved.step (h : s.Conserved) (c : QueueCall) : (s.step c).Conserved := by
  cases c with
  | push frame => exact h.push frame
  | pop =>
      simp only [QueueLog.step, StageQueue.pop]
      cases hqueue : s.queue.queue with
      | nil => exact h
      | cons frame rest =>
          have hone := h.take 1
          rwa [hqueue] at hone
  | popBatch maxBatch => exact h.take _
  | setCapacity capacity =>
      exact ⟨h.running, h.custody, h.order, h.increasing, h.below, h.keyframes, h.dropped,
        h.fits.trans (le_max_left _ _), le_max_right _ _⟩

/-- **An eviction** takes a frame of the channel of the frame pushed, if one can be dropped. -/
theorem evictedBy_channel (h : s.Conserved) {frame old : Frame} (hold : old ∈ s.evictedBy frame)
    (hother : ∃ other ∈ s.queue.queue, other.channelId = frame.channelId ∧
      other.info.isKeyframe = false) : old.channelId = frame.channelId := by
  have hcases := push_cases (s.numbered frame) h.running
  have hkept : (∀ other ∈ s.queue.queue, other ∈ (s.queue.push (s.numbered frame)).1.queue) →
      old.channelId = frame.channelId := fun hall => by
    rw [evictedBy_eq_nil hall] at hold
    cases hold
  cases hp : s.queue.push (s.numbered frame) with
  | mk q ok =>
    rw [hp] at hcases hkept
    cases hcases with
    | stored hroom => exact hkept fun other hmem => List.mem_append_left _ hmem
    | refused hfull hkeys => exact hkept fun other hmem => hmem
    | replaced front first rest hqueue hkey hchannel =>
        rw [evictedBy_eq_singleton h hqueue (by rw [hp])] at hold
        obtain rfl := List.mem_singleton.mp hold
        exact hchannel hother

/-- **Frames are conserved**: after any calls each frame accepted is popped, evicted or queued, in
the order of the pushes; no keyframe is evicted; the counter is right; and the queue fits. -/
theorem frames_conserved (capacity : ℕ) (calls : List QueueCall) :
    let s := calls.foldl step (start capacity)
    (s.accepted.Perm (s.popped ++ s.evicted ++ s.queue.queue) ∧
      (s.accepted.map (·.origin)).Pairwise (· < ·)) ∧
    (s.popped ++ s.queue.queue).Sublist s.accepted ∧
    (∀ frame ∈ s.evicted, frame.info.isKeyframe = false) ∧
    (∀ frame, ∀ old ∈ s.evictedBy frame,
      (∃ other ∈ s.queue.queue, other.channelId = frame.channelId ∧
        other.info.isKeyframe = false) → old.channelId = frame.channelId) ∧
    s.queue.droppedCount = s.evicted.length + s.refused ∧
    s.queue.queue.length ≤ s.largest := by
  intro s
  have h : s.Conserved :=
    foldl_of_step (fun _ c hs => hs.step c) calls (Conserved.start capacity)
  exact ⟨⟨h.custody, h.increasing⟩, h.order, h.keyframes,
    fun frame old hold hother => evictedBy_channel h hold hother, h.dropped, h.fits⟩

end QueueLog

end LoongNvr.Core
