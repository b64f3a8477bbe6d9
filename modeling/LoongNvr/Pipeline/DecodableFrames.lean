import LoongNvr.Pipeline.Stages
import LoongNvr.Support.Gop
import LoongNvr.Support.Runs

/-!
# Pipeline — DecodableFrames

Whether the decode stage pops a picture without those it refers to.  `InputStage` pushes the packets
of one channel; a full queue drops its oldest frame that is not a keyframe, from the middle of a
group of pictures.

* `push_eq`: what a push of the queue's own channel leaves.
* `popsDecodable_iff_linked`: the frames popped from a state on, by the queue it has.
* `decodable_iff`: exactly when every frame popped comes with its group.
-/

namespace LoongNvr.Pipeline
open LoongNvr.Core LoongNvr.VideoInput Support

/-- The queue between the input stage and the decode stage.  What went through is recorded: whether
each frame pushed is a keyframe, and the numbers of the frames popped. -/
structure DecodeQueue where
  queue : StageQueue
  flags : List Bool := []
  popped : List ℕ := []

/-- A packet comes, or the decode stage pops. -/
inductive DecodeQueueOp
  | packet (args : PacketArgs)
  | pop

namespace DecodeQueue

/-- Frames are numbered as they are pushed. -/
def number (frame : Frame) : ℕ := frame.origin.toNat

/-- The frame of the next packet. -/
def nextFrame (channelId : ℤ) (s : DecodeQueue) (args : PacketArgs) : Frame :=
  InputStage.onPacket { args with channelId := channelId } s.flags.length

def step (channelId : ℤ) (s : DecodeQueue) : DecodeQueueOp → DecodeQueue
  | .packet args =>
      { s with
        queue := (s.queue.push (s.nextFrame channelId args)).1
        flags := s.flags ++ [args.isKeyframe] }
  | .pop =>
      match s.queue.pop with
      | some (frame, queue) => { s with queue := queue, popped := s.popped ++ [number frame] }
      | none => s

/-- A new queue. -/
def start (capacity : ℕ) : DecodeQueue := { queue := { capacity := capacity } }

/-- Frames are popped in order, each with all frames back to its keyframe. -/
def Decodable (s : DecodeQueue) : Prop := GopsComplete s.flags s.popped

/-- However many frames are popped next. -/
def PopsDecodable (channelId : ℤ) (s : DecodeQueue) : Prop :=
  ∀ n, Decodable ((List.replicate n .pop).foldl (step channelId) s)

/-- The queue a frame enters, `none` if the frame itself is dropped. -/
def roomFor (q : StageQueue) : Option (List Frame) :=
  if q.queue.length < q.capacity then some q.queue
  else if q.queue.any StageQueue.droppable then some (q.queue.eraseP StageQueue.droppable)
  else none

/-- The frames behind the one that a full queue drops. -/
def behindDropped (q : StageQueue) : List Frame := (q.queue.dropWhile (·.info.isKeyframe)).tail

/-- What keeps groups complete when a frame enters the queue: the frame is a keyframe, or the one
before it has not been dropped; and a frame dropped from a full queue has a keyframe behind it, or
was its last. -/
def Spares (s : DecodeQueue) : DecodeQueueOp → Prop
  | .packet args => ∀ room ∈ roomFor s.queue,
      (args.isKeyframe = true ∨ s.flags.length - 1 ∈ s.popped ++ room.map number) ∧
        (s.queue.capacity ≤ s.queue.queue.length →
          ∀ next ∈ (behindDropped s.queue).head?, next.info.isKeyframe = true)
  | .pop => True

/-! ### One push -/

/-- **A push** into a queue that has frames of one channel only. -/
theorem push_eq {q : StageQueue} (frame : Frame) (hopen : q.shutdown = false)
    (hchannel : ∀ other ∈ q.queue, other.channelId = frame.channelId) :
    (q.push frame).1.queue = ((roomFor q).map (· ++ [frame])).getD q.queue ∧
      (q.push frame).1.shutdown = false := by
  have hsame : ∀ other ∈ q.queue, StageQueue.droppableOf frame.channelId other =
      StageQueue.droppable other := by
    intro other hother
    simp [StageQueue.droppableOf, StageQueue.droppable, hchannel other hother]
  have hany : q.queue.any (StageQueue.droppableOf frame.channelId) =
      q.queue.any StageQueue.droppable := by
    rw [Bool.eq_iff_iff, List.any_eq_true, List.any_eq_true]
    exact exists_congr fun other => and_congr_right fun hother => by rw [hsame other hother]
  have herase : q.queue.eraseP (StageQueue.droppableOf frame.channelId) =
      q.queue.eraseP StageQueue.droppable := by
    clear hany hchannel
    generalize q.queue = l at hsame
    induction l with
    | nil => rfl
    | cons other l ih =>
        obtain ⟨hother, hl⟩ := List.forall_mem_cons.mp hsame
        rw [List.eraseP_cons, List.eraseP_cons, hother, ih hl]
  simp only [StageQueue.push, hopen, hany, herase, roomFor, Bool.false_eq_true, if_false]
  by_cases hfull : q.queue.length ≥ q.capacity
  · rw [if_pos hfull, if_neg (not_lt.mpr hfull)]
    by_cases hdrop : q.queue.any StageQueue.droppable = true
    · rw [if_pos hdrop, if_pos hdrop]
      exact ⟨rfl, rfl⟩
    · rw [if_neg hdrop, if_neg hdrop, if_neg hdrop]
      exact ⟨rfl, rfl⟩
  · rw [if_neg hfull, if_pos (not_le.mp hfull)]
    exact ⟨rfl, rfl⟩

/-- What a full queue drops: its first frame that is not a keyframe. -/
theorem roomFor_full {q : StageQueue} {room : List Frame} (hroom : roomFor q = some room)
    (hfull : q.capacity ≤ q.queue.length) :
    ∃ front dropped, q.queue = front ++ dropped :: behindDropped q ∧
      room = front ++ behindDropped q := by
  rw [roomFor, if_neg (not_lt.mpr hfull)] at hroom
  split at hroom
  · next hany =>
      obtain ⟨frame, hmem, hdrop⟩ := List.any_eq_true.mp hany
      obtain ⟨dropped, front, rest, hkeys, hdropped, hqueue, herase⟩ :=
        List.exists_of_eraseP hmem hdrop
      have hbehind : behindDropped q = rest := by
        rw [behindDropped, hqueue, List.dropWhile_append_of_pos, List.dropWhile_cons_of_neg,
          List.tail_cons]
        · simpa [StageQueue.droppable] using hdropped
        · intro other hother
          simpa [StageQueue.droppable] using hkeys other hother
      rw [hbehind]
      exact ⟨front, dropped, hqueue, (Option.some.inj hroom).symm.trans herase⟩
  · cases hroom

/-! ### Popping -/

/-- The numbers of the frames in the queue. -/
def queued (s : DecodeQueue) : List ℕ := s.queue.queue.map number

theorem pops (channelId : ℤ) (n : ℕ) (s : DecodeQueue) :
    ((List.replicate n .pop).foldl (step channelId) s).flags = s.flags ∧
      ((List.replicate n .pop).foldl (step channelId) s).popped =
        s.popped ++ s.queued.take n := by
  induction n generalizing s with
  | zero => simp
  | succ n ih =>
      rw [List.replicate_succ, List.foldl_cons]
      cases hq : s.queue.queue with
      | nil =>
          have hstep : step channelId s .pop = s := by simp [step, StageQueue.pop, hq]
          rw [hstep, (ih s).1, (ih s).2]
          simp [queued, hq]
      | cons frame rest =>
          have hstep : step channelId s .pop =
              { s with
                queue := { s.queue with queue := rest }
                popped := s.popped ++ [number frame] } := by
            simp [step, StageQueue.pop, hq]
          rw [hstep, (ih _).1, (ih _).2]
          simp [queued, hq]

theorem popsDecodable_iff_linked (channelId : ℤ) (s : DecodeQueue) :
    PopsDecodable channelId s ↔ Linked s.flags (s.popped ++ s.queued) := by
  simp only [PopsDecodable, Decodable, pops]
  constructor
  · intro h
    have hall := h s.queued.length
    rw [List.take_length] at hall
    exact hall.linked
  · intro h n
    rw [← List.take_append_drop n s.queued, ← List.append_assoc] at h
    exact h.left.complete

/-! ### Runs -/

/-- What holds of a queue that has lost no reference so far. -/
structure Whole (channelId : ℤ) (s : DecodeQueue) : Prop where
  isOpen : s.queue.shutdown = false
  channel : ∀ frame ∈ s.queue.queue, frame.channelId = channelId
  flag : ∀ frame ∈ s.queue.queue, s.flags[number frame]? = some frame.info.isKeyframe
  linked : Linked s.flags (s.popped ++ s.queued)

section
variable {channelId : ℤ} {s : DecodeQueue} (args : PacketArgs)

theorem number_nextFrame : number (s.nextFrame channelId args) = s.flags.length := rfl

/-- A packet that enters the queue. -/
theorem step_packet_some (hopen : s.queue.shutdown = false)
    (hchannel : ∀ frame ∈ s.queue.queue, frame.channelId = channelId) {room : List Frame}
    (hroom : roomFor s.queue = some room) :
    (step channelId s (.packet args)).queue.queue = room ++ [s.nextFrame channelId args] ∧
      (step channelId s (.packet args)).queue.shutdown = false := by
  have hpush := push_eq (s.nextFrame channelId args) hopen hchannel
  rw [hroom] at hpush
  exact hpush

/-- A packet that is dropped. -/
theorem step_packet_none (hopen : s.queue.shutdown = false)
    (hchannel : ∀ frame ∈ s.queue.queue, frame.channelId = channelId)
    (hroom : roomFor s.queue = none) :
    (step channelId s (.packet args)).queue.queue = s.queue.queue ∧
      (step channelId s (.packet args)).queue.shutdown = false := by
  have hpush := push_eq (s.nextFrame channelId args) hopen hchannel
  rw [hroom] at hpush
  exact hpush

/-- No frame enters but from the queue. -/
theorem roomFor_subset {q : StageQueue} {room : List Frame} (hroom : roomFor q = some room) :
    room ⊆ q.queue := by
  rw [roomFor] at hroom
  split at hroom
  · exact Option.some.inj hroom ▸ List.Subset.refl _
  · split at hroom
    · exact Option.some.inj hroom ▸ List.eraseP_subset
    · cases hroom

theorem Whole.room (h : Whole channelId s) {room : List Frame} (hroom : roomFor s.queue = some room)
    (hspares : s.queue.capacity ≤ s.queue.queue.length →
      ∀ next ∈ (behindDropped s.queue).head?, next.info.isKeyframe = true) :
    Linked s.flags (s.popped ++ room.map number) := by
  have hlinked := h.linked
  rcases Nat.lt_or_ge s.queue.queue.length s.queue.capacity with hlt | hfull
  · rw [roomFor, if_pos hlt] at hroom
    exact Option.some.inj hroom ▸ hlinked
  · obtain ⟨front, dropped, hqueue, rfl⟩ := roomFor_full hroom hfull
    have hnums : s.popped ++ s.queued = (s.popped ++ front.map number) ++
        ([number dropped] ++ (behindDropped s.queue).map number) := by
      simp [queued, hqueue]
    rw [hnums] at hlinked
    rw [List.map_append, ← List.append_assoc]
    refine hlinked.remove fun n hn => ?_
    rw [List.head?_map] at hn
    obtain ⟨next, hnext, rfl⟩ := Option.map_eq_some_iff.mp hn
    have hmem : next ∈ s.queue.queue := by
      rw [hqueue]
      exact List.mem_append_right _ (List.mem_cons_of_mem _ (List.mem_of_mem_head? hnext))
    rw [h.flag next hmem, hspares hfull next hnext]

theorem Whole.step (h : Whole channelId s) {op : DecodeQueueOp} (hspares : Spares s op) :
    Whole channelId (step channelId s op) := by
  cases op with
  | packet args =>
      have hflags : (DecodeQueue.step channelId s (.packet args)).flags =
          s.flags ++ [args.isKeyframe] := rfl
      have hold : ∀ frame ∈ s.queue.queue,
          (s.flags ++ [args.isKeyframe])[number frame]? = some frame.info.isKeyframe := by
        intro frame hframe
        have hlt := (List.getElem?_eq_some_iff.mp (h.flag frame hframe)).1
        rw [List.getElem?_append_left hlt, h.flag frame hframe]
      cases hroom : roomFor s.queue with
      | none =>
          obtain ⟨hqueue, hopen⟩ := step_packet_none args h.isOpen h.channel hroom
          refine ⟨hopen, hqueue ▸ h.channel, hqueue ▸ hold, ?_⟩
          rw [queued, hqueue]
          exact h.linked.skip _
      | some room =>
          obtain ⟨hkey, hbehind⟩ := hspares room hroom
          obtain ⟨hqueue, hopen⟩ := step_packet_some args h.isOpen h.channel hroom
          refine ⟨hopen, fun frame hframe => ?_, fun frame hframe => ?_, ?_⟩
          · rw [hqueue] at hframe
            rcases List.mem_append.mp hframe with hin | hnew
            · exact h.channel frame (roomFor_subset hroom hin)
            · exact List.mem_singleton.mp hnew ▸ rfl
          · rw [hqueue] at hframe
            rcases List.mem_append.mp hframe with hin | hnew
            · exact hold frame (roomFor_subset hroom hin)
            · obtain rfl := List.mem_singleton.mp hnew
              rw [hflags, number_nextFrame]
              simp [nextFrame, InputStage.onPacket]
          · rw [queued, hqueue, List.map_append, ← List.append_assoc]
            exact (h.room hroom hbehind).put hkey
  | pop =>
      cases hq : s.queue.queue with
      | nil =>
          have hstep : DecodeQueue.step channelId s .pop = s := by
            simp [DecodeQueue.step, StageQueue.pop, hq]
          rwa [hstep]
      | cons frame rest =>
          have hstep : DecodeQueue.step channelId s .pop =
              { s with
                queue := { s.queue with queue := rest }
                popped := s.popped ++ [number frame] } := by
            simp [DecodeQueue.step, StageQueue.pop, hq]
          have hrest : rest ⊆ s.queue.queue := hq ▸ List.subset_cons_self _ _
          rw [hstep]
          refine ⟨h.isOpen, fun f hf => h.channel f (hrest hf), fun f hf => h.flag f (hrest hf), ?_⟩
          have hlinked := h.linked
          rw [queued, hq, List.map_cons] at hlinked
          simpa [queued] using hlinked

/-- A frame that entered where it should not have: it or the one behind the frame dropped is now
without the frame it refers to. -/
theorem Whole.spares (h : Whole channelId s) {op : DecodeQueueOp}
    (hnext : Linked (DecodeQueue.step channelId s op).flags
      ((DecodeQueue.step channelId s op).popped ++ (DecodeQueue.step channelId s op).queued)) :
    Spares s op := by
  cases op with
  | pop => trivial
  | packet args =>
      intro room hroom
      obtain ⟨hqueue, -⟩ := step_packet_some args h.isOpen h.channel hroom
      have hlinked : Linked (s.flags ++ [args.isKeyframe])
          ((s.popped ++ room.map number) ++ [s.flags.length]) := by
        rw [queued, hqueue, List.map_append, ← List.append_assoc] at hnext
        exact hnext
      obtain ⟨-, -, hbefore⟩ := List.pairwise_append.mp hlinked.ordered
      constructor
      · rcases hlinked.linked s.flags.length (by simp) with hkey | ⟨-, m, hm, e⟩
        · exact .inl (by simpa using hkey)
        · rcases List.mem_append.mp hm with hin | hlast
          · refine .inr ?_
            rwa [show s.flags.length - 1 = m by omega]
          · have := List.mem_singleton.mp hlast
            omega
      · intro hfull next hhead
        obtain ⟨front, dropped, hsplit, rfl⟩ := roomFor_full hroom hfull
        obtain ⟨rest, hrest⟩ : ∃ rest, behindDropped s.queue = next :: rest :=
          List.head?_eq_some_iff.mp hhead
        have hmem : next ∈ s.queue.queue := by rw [hsplit, hrest]; simp
        have hflag := h.flag next hmem
        have hlt := (List.getElem?_eq_some_iff.mp hflag).1
        rcases hlinked.linked (number next) (by simp [hrest]) with hkey | ⟨-, m, hm, e⟩
        · rw [List.getElem?_append_left hlt, hflag] at hkey
          exact Option.some.inj hkey
        · -- the frame before `next` would lie in front of the one dropped
          exfalso
          have hold : ((s.popped ++ front.map number) ++
              number dropped :: number next :: rest.map number).Pairwise (· < ·) := by
            have hordered := h.linked.ordered
            simpa [queued, hsplit, hrest] using hordered
          obtain ⟨-, hdropped, hfront⟩ := List.pairwise_append.mp hold
          have hdn : number dropped < number next :=
            List.rel_of_pairwise_cons hdropped List.mem_cons_self
          have hnew : ((s.popped ++ front.map number) ++
              number next :: (rest.map number ++ [s.flags.length])).Pairwise (· < ·) := by
            have hordered := hlinked.ordered
            simpa [hrest] using hordered
          obtain ⟨-, hbehind, -⟩ := List.pairwise_append.mp hnew
          have hwhere : m ∈ (s.popped ++ front.map number) ++
              number next :: (rest.map number ++ [s.flags.length]) := by
            simpa [hrest] using hm
          rcases List.mem_append.mp hwhere with hin | hin
          · have := hfront m hin (number dropped) List.mem_cons_self
            omega
          · rcases List.mem_cons.mp hin with rfl | hlater
            · omega
            · have := List.rel_of_pairwise_cons hbehind hlater
              omega

theorem whole_start (channelId : ℤ) (capacity : ℕ) : Whole channelId (start capacity) :=
  ⟨rfl, fun _ hframe => absurd hframe List.not_mem_nil,
    fun _ hframe => absurd hframe List.not_mem_nil, .nil⟩

end

/-- **At every point of a run all frames that can be popped come with their groups** exactly if
every push spares them. -/
theorem decodable_iff (channelId : ℤ) (capacity : ℕ) (ops : List DecodeQueueOp) :
    Along (step channelId) (PopsDecodable channelId) (start capacity) ops ↔
      EveryStep (step channelId) Spares (start capacity) ops := by
  refine along_iff_of_invariant (I := Whole channelId) (fun s h => ?_)
    (fun s op h hspares => h.step hspares) (fun s op h hnext => ?_) (whole_start channelId capacity)
  · exact (popsDecodable_iff_linked channelId s).mpr h.linked
  · exact h.spares ((popsDecodable_iff_linked channelId _).mp hnext)

/-- A packet of a stream. -/
def packetOf (isKeyframe : Bool) : DecodeQueueOp :=
  .packet
    { channelId := 1, data := [], pts := 0, dts := 0, isKeyframe := isKeyframe, codec := .h264 }

/-- A keyframe and two frames behind it in a queue for two. -/
theorem decodable_refuted :
    ¬ ∀ (channelId : ℤ) (capacity : ℕ) (ops : List DecodeQueueOp), 0 < capacity →
      (∀ args, ops.head? = some (.packet args) → args.isKeyframe = true) →
      Along (step channelId) Decodable (start capacity) ops := by
  intro h
  have hpopped := (h 1 2 [packetOf true, packetOf false, packetOf false, .pop, .pop] (by decide)
    (by rintro args hargs; cases hargs; rfl)).last.linked.linked 2 (by decide +kernel)
  exact absurd hpopped (by decide +kernel)

end DecodeQueue

end LoongNvr.Pipeline
