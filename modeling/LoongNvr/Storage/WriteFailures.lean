import LoongNvr.Storage.Recorder

/-!
# Storage — WriteFailures

`RecordWriter` and `Recorder` where opening a segment or writing a packet may fail.  A segment that
fails to open has changed the writer's path all the same, and a packet that fails may have been the
first of a new segment.

* `RecordWriter.tryWriteFrame`, `startNewSegment`: the writer, by what FFmpeg returns.
* `WriteResult`: what comes of a frame.
* `Recording`, `Recording.step`: the recorder, and the calls it makes to the index.
* `Recording.step_of_success`: where nothing fails it is the recorder of `Recorder`.
-/

namespace LoongNvr.Storage
open Support LoongNvr.Core

/-- What FFmpeg returns in one `WriteFrame`: to the opening of a segment where none is open, to the
opening of one where another is full, and to the packet. -/
structure Outcome where
  opens : Bool := true
  reopens : Bool := true
  writes : Bool := true
  deriving DecidableEq, Repr

variable (segmentPath : ℕ → String)

namespace RecordWriter

/-- `OpenSegment`, and the start of the segment if it could be opened. -/
def tryOpen (ok : Bool) (pts : ℤ) (w : RecordWriter) (disk : Disk) :
    RecordWriter × Disk × Bool :=
  ({ w with
      currentSegmentPath := segmentPath disk.opened
      isOpen := ok
      segmentStartPts := if ok then pts else w.segmentStartPts },
    { disk with opened := disk.opened + 1 }, ok)

/-- The segment the frame belongs to, opened if it has to be. -/
def tryPrepare (o : Outcome) (pts : ℤ) (isKeyframe : Bool) (w : RecordWriter) (disk : Disk) :
    RecordWriter × Disk × Bool :=
  match if w.isOpen then (w, disk, true) else w.tryOpen segmentPath o.opens pts disk with
  | (w, disk, false) => (w, disk, false)
  | (w, disk, true) =>
      if w.full pts isKeyframe then w.closeSegment.tryOpen segmentPath o.reopens pts disk
      else (w, disk, true)

def tryWriteFrame (o : Outcome) (size : ℕ) (pts : ℤ) (isKeyframe : Bool) (w : RecordWriter)
    (disk : Disk) : RecordWriter × Disk × Bool :=
  if !w.isOpen && !isKeyframe then (w, disk, true)
  else
    match w.tryPrepare segmentPath o pts isKeyframe disk with
    | (w, disk, false) => (w, disk, false)
    | (w, disk, true) =>
        if o.writes then
          let (w, disk) := w.writePacket size disk
          (w, disk, true)
        else (w, disk, false)

/-- The start of the segment stays what it was. -/
def startNewSegment (ok : Bool) (w : RecordWriter) (disk : Disk) : RecordWriter × Disk :=
  let w := if w.isOpen then w.closeSegment else w
  let (w, disk, _) := w.tryOpen segmentPath ok w.segmentStartPts disk
  (w, disk)

/-- What comes of a frame: nothing is opened and nothing written, something is opened and nothing
written, the open segment is written to, or one that was opened for it. -/
inductive WriteResult (o : Outcome) (size : ℕ) (pts : ℤ) (isKeyframe : Bool) (w : RecordWriter)
    (disk : Disk) : RecordWriter × Disk × Bool → Prop
  | kept (ok : Bool) (failed : w.isOpen = true → o.writes = false) :
      WriteResult o size pts isKeyframe w disk (w, disk, ok)
  | moved (n : ℕ) (isOpen : Bool) (start : ℤ) (later : disk.opened ≤ n)
      (full : w.isOpen = true → w.full pts isKeyframe = true) :
      WriteResult o size pts isKeyframe w disk
        ({ w with
            currentSegmentPath := segmentPath n, isOpen := isOpen, segmentStartPts := start },
          { disk with opened := n + 1 }, false)
  | wrote (isOpen : w.isOpen = true) (room : w.full pts isKeyframe = false)
      (writes : o.writes = true) :
      WriteResult o size pts isKeyframe w disk
        ((w.writePacket size disk).1, (w.writePacket size disk).2, true)
  | began (n : ℕ) (w' : RecordWriter) (disk' : Disk) (later : disk.opened ≤ n)
      (full : w.isOpen = true → w.full pts isKeyframe = true)
      (writer : w' = { w with
        currentSegmentPath := segmentPath n, isOpen := true, segmentStartPts := pts })
      (opened : disk' = { disk with opened := n + 1 }) :
      WriteResult o size pts isKeyframe w disk
        ((w'.writePacket size disk').1, (w'.writePacket size disk').2, true)

end RecordWriter

/-! ### The recorder -/

/-- A call of the recorder to its index, or to the queue in front of it. -/
inductive IndexCall
  | insertSegment (segmentId : ℤ) (row : SegmentRow)
  | updateSegmentEnd (segmentId : ℤ)
  deriving DecidableEq, Repr

/-- A recorder and the calls it has made to the index. -/
structure Recording where
  recorder : Recorder := {}
  calls : List IndexCall := []

namespace Recording

def finalizeSegment (cr : ChannelRecorder) (now : ℤ) (s : Recording) : Recording where
  recorder := s.recorder.finalizeSegment cr now
  calls :=
    if cr.state.currentSegmentId < 0 then s.calls
    else s.calls ++ [.updateSegmentEnd cr.state.currentSegmentId]

def insertSegment (row : SegmentRow) (s : Recording) : Recording × ℤ :=
  let (index, segmentId) := s.recorder.index.insertSegment row
  ({ recorder := { s.recorder with index := index }
     calls := s.calls ++ [.insertSegment segmentId row] }, segmentId)

def put (channelId : ℤ) (cr : ChannelRecorder) (s : Recording) : Recording :=
  { s with
    recorder := { s.recorder with recorders := s.recorder.recorders.insert channelId cr } }

def startRecording (channelId : ℤ) (config : RecordConfig) (now : ℤ) (s : Recording) :
    Recording × Bool :=
  let (recorder, ok) := s.recorder.startRecording channelId config now
  ({ s with recorder := recorder }, ok)

def stopRecording (channelId now : ℤ) (s : Recording) : Recording × Bool :=
  match s.recorder.recorders.lookup channelId with
  | none => (s, false)
  | some cr =>
      if !cr.state.isRecording then (s, false)
      else
        let s := s.finalizeSegment cr now
        ({ s with
            recorder := { s.recorder with recorders := s.recorder.recorders.erase channelId } },
          true)

/-- The rest of `WriteFrame` once the writer has returned: a path that is not what it was is that of
a new segment. -/
def noteFrame (channelId now : ℤ) (oldPath : String) (cr : ChannelRecorder) (s : Recording) :
    Recording :=
  let newPath := cr.writer.currentSegmentPath
  if newPath ≠ oldPath then
    let s := if oldPath ≠ "" ∧ cr.state.currentSegmentId ≥ 0 then s.finalizeSegment cr now else s
    let (s, segId) := s.insertSegment (Recorder.newSegment channelId now newPath cr.config)
    s.put channelId
      { cr with
        state :=
          { cr.state with
            currentSegmentId := segId
            segmentStartTimeMs := now
            totalFrames := cr.state.totalFrames + 1 } }
  else
    s.put channelId { cr with state := { cr.state with totalFrames := cr.state.totalFrames + 1 } }

/-- A frame that fails leaves what the writer has done, and the index as it is. -/
def writeFrame (o : Outcome) (channelId : ℤ) (size : ℕ) (pts : ℤ) (isKeyframe : Bool) (now : ℤ)
    (s : Recording) : Recording × Bool :=
  match s.recorder.recorders.lookup channelId with
  | none => (s, false)
  | some cr =>
      if !cr.state.isRecording then (s, false)
      else
        let (writer, disk, ok) :=
          cr.writer.tryWriteFrame segmentPath o size pts isKeyframe s.recorder.disk
        let s : Recording := { s with recorder := { s.recorder with disk := disk } }
        let written : ChannelRecorder := { cr with writer := writer }
        if ok then (s.noteFrame channelId now cr.writer.currentSegmentPath written, true)
        else (s.put channelId written, false)

def stopAll (now : ℤ) (s : Recording) : Recording :=
  let s := s.recorder.recorders.entries.foldl
    (fun s entry => if entry.2.state.isRecording then s.finalizeSegment entry.2 now else s) s
  { s with recorder := { s.recorder with recorders := ∅ } }

/-- One call; for a frame, with what FFmpeg returns. -/
def step (s : Recording) : RecorderOp × Outcome → Recording
  | (.startRecording channelId config now, _) => (s.startRecording channelId config now).1
  | (.writeFrame channelId size pts isKeyframe now, o) =>
      (s.writeFrame segmentPath o channelId size pts isKeyframe now).1
  | (.stopRecording channelId now, _) => (s.stopRecording channelId now).1
  | (.stopAll now, _) => s.stopAll now
  | (.flush, _) => { s with recorder := s.recorder.flush }

end Recording

/-! ### What comes of a frame -/

variable {segmentPath}

namespace RecordWriter

theorem tryWriteFrame_result (o : Outcome) (size : ℕ) (pts : ℤ) (isKeyframe : Bool)
    (w : RecordWriter) (disk : Disk) :
    WriteResult segmentPath o size pts isKeyframe w disk
      (w.tryWriteFrame segmentPath o size pts isKeyframe disk) := by
  obtain ⟨opens, reopens, writes⟩ := o
  rw [tryWriteFrame]
  cases hopen : w.isOpen with
  | false =>
      have hclosed : w.isOpen = true → w.full pts isKeyframe = true := fun h =>
        absurd (h.symm.trans hopen) (by simp)
      cases isKeyframe with
      | false => exact .kept true fun h => absurd (h.symm.trans hopen) (by simp)
      | true =>
          simp only [tryPrepare, hopen, Bool.false_eq_true, if_false, Bool.not_true, Bool.and_false]
          cases opens with
          | false => exact .moved disk.opened false _ le_rfl hclosed
          | true =>
              -- what was just opened may be full at once
              cases hfull : (w.tryOpen segmentPath true pts disk).1.full pts true with
              | true =>
                  simp only [tryOpen, if_true] at hfull ⊢
                  rw [if_pos hfull]
                  cases reopens with
                  | false => exact .moved (disk.opened + 1) false _ (Nat.le_succ _) hclosed
                  | true =>
                      cases writes with
                      | false => exact .moved (disk.opened + 1) true _ (Nat.le_succ _) hclosed
                      | true => exact .began _ _ _ (Nat.le_succ _) hclosed rfl rfl
              | false =>
                  simp only [tryOpen, if_true] at hfull ⊢
                  rw [if_neg (by rw [hfull]; exact Bool.false_ne_true)]
                  cases writes with
                  | false => exact .moved disk.opened true _ le_rfl hclosed
                  | true => exact .began _ _ _ le_rfl hclosed rfl rfl
  | true =>
      simp only [tryPrepare, hopen, if_true, Bool.not_true, Bool.false_and, Bool.false_eq_true,
        if_false]
      cases hfull : w.full pts isKeyframe with
      | false =>
          cases writes with
          | false => exact .kept false fun _ => rfl
          | true => exact .wrote hopen hfull rfl
      | true =>
          cases reopens with
          | false => exact .moved disk.opened false _ le_rfl fun _ => hfull
          | true =>
              cases writes with
              | false => exact .moved disk.opened true _ le_rfl fun _ => hfull
              | true => exact .began _ _ _ le_rfl (fun _ => hfull) rfl rfl

/-- **Without a failure** the writer is the one whose writes succeed. -/
theorem tryWriteFrame_of_success (size : ℕ) (pts : ℤ) (isKeyframe : Bool) (w : RecordWriter)
    (disk : Disk) :
    w.tryWriteFrame segmentPath {} size pts isKeyframe disk =
      ((w.writeFrame segmentPath size pts isKeyframe disk).1,
        (w.writeFrame segmentPath size pts isKeyframe disk).2, true) := by
  rw [tryWriteFrame, writeFrame]
  cases hopen : w.isOpen with
  | false =>
      cases isKeyframe with
      | false => rfl
      | true =>
          simp only [tryPrepare, prepare, tryOpen, openSegment, hopen, Bool.false_eq_true, if_false,
            if_true, Bool.not_true, Bool.and_false]
          cases hfull : (w.openSegment segmentPath pts disk).1.full pts true with
          | true =>
              simp only [openSegment] at hfull
              simp only [if_pos hfull]
          | false =>
              simp only [openSegment] at hfull
              simp only [hfull, Bool.false_eq_true, if_false]
  | true =>
      simp only [tryPrepare, prepare, tryOpen, openSegment, hopen, if_true, Bool.not_true,
        Bool.false_and, Bool.false_eq_true, if_false]
      cases w.full pts isKeyframe with
      | true => rfl
      | false => rfl

end RecordWriter

namespace Recording

theorem recorder_stopAll (now : ℤ) (s : Recording) :
    (s.stopAll now).recorder = s.recorder.stopAll now := by
  have hfold : ∀ (entries : List (Sigma fun _ : ℤ => ChannelRecorder)) (s : Recording),
      (entries.foldl (fun s entry =>
        if entry.2.state.isRecording then s.finalizeSegment entry.2 now else s) s).recorder =
      entries.foldl (fun s entry =>
        if entry.2.state.isRecording then s.finalizeSegment entry.2 now else s) s.recorder := by
    intro entries
    induction entries with
    | nil => exact fun s => rfl
    | cons entry entries ih =>
        intro s
        rw [List.foldl_cons, List.foldl_cons, ih]
        split
        · rfl
        · rfl
  rw [stopAll, Recorder.stopAll, ← hfold]

theorem recorder_stopRecording (channelId now : ℤ) (s : Recording) :
    (s.stopRecording channelId now).1.recorder = (s.recorder.stopRecording channelId now).1 := by
  rw [stopRecording, Recorder.stopRecording]
  cases s.recorder.recorders.lookup channelId with
  | none => rfl
  | some cr =>
      dsimp only
      split
      · rfl
      · rfl

/-- **Where nothing fails** the recorder is the one of `Recorder`. -/
theorem step_of_success (s : Recording) (op : RecorderOp) :
    (s.step segmentPath (op, {})).recorder = s.recorder.step segmentPath op := by
  cases op with
  | startRecording channelId config now => rfl
  | stopRecording channelId now => exact recorder_stopRecording channelId now s
  | stopAll now => exact recorder_stopAll now s
  | flush => rfl
  | writeFrame channelId size pts isKeyframe now =>
      show (s.writeFrame segmentPath {} channelId size pts isKeyframe now).1.recorder =
        (s.recorder.writeFrame segmentPath channelId size pts isKeyframe now).1
      rw [writeFrame, Recorder.writeFrame]
      cases s.recorder.recorders.lookup channelId with
      | none => rfl
      | some cr =>
          simp only [RecordWriter.tryWriteFrame_of_success, if_true, noteFrame]
          split
          · rfl
          · split
            · split
              · rfl
              · rfl
            · rfl

end Recording

end LoongNvr.Storage
