import LoongNvr.Core.Types
import LoongNvr.Storage.RecordIndex
import Mathlib.Data.List.AList

/-!
# Storage — Recorder

`RecordWriter`, which writes the frames of a channel to segment files, and `Recorder`, which keeps
the index of the segments.  Writes succeed.  The path a segment gets depends on the clock: the
`n`-th segment that is opened has the path `segmentPath n`.  What is written stays on the disk, as
the list of the written frames.

* `RecordWriter.writeFrame`: opens, rotates and writes.
* `Recorder.writeFrame`, `finalizeSegment`: what the index is told.
* `RecorderOp`, `step`: a recorder under any sequence of calls.
-/

namespace LoongNvr.Storage
open Support LoongNvr.Core
open LoongNvr.Rules (cStr)

/-- What is there after an insertion was inserted, or is under another key. -/
theorem lookup_insert_cases {β : Type*} {entries : AList fun _ : ℤ => β} {key key' : ℤ} {b b' : β}
    (h : (entries.insert key b).lookup key' = some b') :
    key' = key ∧ b' = b ∨ key' ≠ key ∧ entries.lookup key' = some b' := by
  by_cases e : key' = key
  · subst e
    rw [AList.lookup_insert, Option.some.injEq] at h
    exact .inl ⟨rfl, h.symm⟩
  · rw [AList.lookup_insert_ne e] at h
    exact .inr ⟨e, h⟩

structure RecordConfig where
  segmentDurationSec : ℤ := 1800
  codec : CodecType := .h264
  width : ℤ := 1920
  height : ℤ := 1080
  deriving DecidableEq, Repr

/-- A frame in a segment file. -/
structure WrittenFrame where
  path : String
  channelId : ℤ
  size : ℕ
  deriving DecidableEq, Repr

/-- The segment files: how many were opened, and the frames written to them. -/
structure Disk where
  opened : ℕ := 0
  frames : List WrittenFrame := []
  deriving DecidableEq, Repr

/-- The sizes of the frames in a file. -/
def Disk.fileBytes (disk : Disk) (path : String) : ℤ :=
  ((disk.frames.filter fun frame => frame.path = path).map fun frame => (frame.size : ℤ)).sum

/-- The sizes of the frames recorded for a channel. -/
def Disk.channelBytes (disk : Disk) (channelId : ℤ) : ℤ :=
  ((disk.frames.filter fun frame => frame.channelId = channelId).map fun frame =>
    (frame.size : ℤ)).sum

/-- The writer of a recording; `written` keeps the frames written since the recording started, for
what is said about runs, and nothing reads it. -/
structure RecordWriter where
  channelId : ℤ
  config : RecordConfig
  segmentStartPts : ℤ := -1
  frameCount : ℤ := 0
  totalBytesWritten : ℤ := 0
  currentSegmentPath : String := ""
  isOpen : Bool := false
  written : List WrittenFrame := []
  deriving DecidableEq, Repr

variable (segmentPath : ℕ → String)

namespace RecordWriter

/-- `OpenSegment`, and the start of the segment. -/
def openSegment (pts : ℤ) (w : RecordWriter) (disk : Disk) : RecordWriter × Disk :=
  ({ w with
      currentSegmentPath := segmentPath disk.opened
      isOpen := true
      segmentStartPts := pts }, { disk with opened := disk.opened + 1 })

def closeSegment (w : RecordWriter) : RecordWriter := { w with isOpen := false }

/-- Whether a frame finds its segment full. -/
def full (w : RecordWriter) (pts : ℤ) (isKeyframe : Bool) : Bool :=
  isKeyframe && w.segmentStartPts ≥ 0 &&
    (pts - w.segmentStartPts).tdiv 1000000 ≥ w.config.segmentDurationSec

/-- The writer with the segment open that the frame belongs to. -/
def prepare (pts : ℤ) (isKeyframe : Bool) (w : RecordWriter) (disk : Disk) :
    RecordWriter × Disk :=
  let (w, disk) := if w.isOpen then (w, disk) else w.openSegment segmentPath pts disk
  if w.full pts isKeyframe then w.closeSegment.openSegment segmentPath pts disk
  else (w, disk)

/-- The frame in the open segment's file, whose name `avio_open` got as a C string. -/
def writePacket (size : ℕ) (w : RecordWriter) (disk : Disk) : RecordWriter × Disk :=
  let frame : WrittenFrame :=
    { path := cStr w.currentSegmentPath, channelId := w.channelId, size := size }
  ({ w with
      totalBytesWritten := w.totalBytesWritten + size
      frameCount := w.frameCount + 1
      written := w.written ++ [frame] },
    { disk with frames := disk.frames ++ [frame] })

def writeFrame (size : ℕ) (pts : ℤ) (isKeyframe : Bool) (w : RecordWriter) (disk : Disk) :
    RecordWriter × Disk :=
  if !w.isOpen && !isKeyframe then (w, disk)
  else
    let (w, disk) := w.prepare segmentPath pts isKeyframe disk
    w.writePacket size disk

end RecordWriter

structure RecordingState where
  isRecording : Bool := false
  currentSegmentId : ℤ := -1
  segmentStartTimeMs : ℤ := 0
  totalFrames : ℤ := 0
  deriving DecidableEq, Repr

structure ChannelRecorder where
  writer : RecordWriter
  config : RecordConfig
  state : RecordingState

/-- The recorder, its index and the queue of its indexer, if it has one. -/
structure Recorder where
  index : RecordIndex := {}
  indexer : Option (List PendingOp) := none
  recorders : AList (fun _ : ℤ => ChannelRecorder) := ∅
  disk : Disk := {}

namespace Recorder

def startRecording (channelId : ℤ) (config : RecordConfig) (now : ℤ) (s : Recorder) :
    Recorder × Bool :=
  if ((s.recorders.lookup channelId).map (·.state.isRecording)).getD false then (s, false)
  else
    ({ s with
        recorders := s.recorders.insert channelId
          { writer := { channelId := channelId, config := config }
            config := config
            state := { isRecording := true, segmentStartTimeMs := now } } }, true)

/-- `QueueSegmentUpdate`, or `UpdateSegmentEnd` where there is no indexer. -/
def updateSegment (segmentId endTime fileSize : ℤ) (s : Recorder) : Recorder :=
  match s.indexer with
  | some pendingOps =>
      { s with indexer := some (pendingOps ++ [.updateSegment segmentId endTime fileSize]) }
  | none => { s with index := s.index.updateSegmentEnd segmentId endTime fileSize }

/-- The index part of `FinalizeSegment`; the caller forgets the segment. -/
def finalizeSegment (cr : ChannelRecorder) (now : ℤ) (s : Recorder) : Recorder :=
  if cr.state.currentSegmentId < 0 then s
  else s.updateSegment cr.state.currentSegmentId now cr.writer.totalBytesWritten

def stopRecording (channelId now : ℤ) (s : Recorder) : Recorder × Bool :=
  match s.recorders.lookup channelId with
  | none => (s, false)
  | some cr =>
      if !cr.state.isRecording then (s, false)
      else
        let s := s.finalizeSegment cr now
        ({ s with recorders := s.recorders.erase channelId }, true)

/-- The row of a new segment. -/
def newSegment (channelId now : ℤ) (path : String) (config : RecordConfig) : SegmentRow where
  channelId := channelId
  startTime := now
  endTime := now
  filePath := path
  codec := if config.codec = .h264 then "h264" else "h265"
  resolution := toString config.width ++ "x" ++ toString config.height

def writeFrame (channelId : ℤ) (size : ℕ) (pts : ℤ) (isKeyframe : Bool) (now : ℤ)
    (s : Recorder) : Recorder × Bool :=
  match s.recorders.lookup channelId with
  | none => (s, false)
  | some cr =>
      if !cr.state.isRecording then (s, false)
      else
        let oldPath := cr.writer.currentSegmentPath
        let (writer, disk) := cr.writer.writeFrame segmentPath size pts isKeyframe s.disk
        let newPath := writer.currentSegmentPath
        let cr : ChannelRecorder := { cr with writer := writer }
        let s : Recorder := { s with disk := disk }
        if newPath ≠ oldPath then
          let s :=
            if oldPath ≠ "" ∧ cr.state.currentSegmentId ≥ 0 then s.finalizeSegment cr now else s
          let (index, segId) := s.index.insertSegment (newSegment channelId now newPath cr.config)
          ({ s with
              index := index
              recorders := s.recorders.insert channelId
                { cr with
                  state :=
                    { cr.state with
                      currentSegmentId := segId
                      segmentStartTimeMs := now
                      totalFrames := cr.state.totalFrames + 1 } } }, true)
        else
          ({ s with
              recorders := s.recorders.insert channelId
                { cr with
                  state := { cr.state with totalFrames := cr.state.totalFrames + 1 } } }, true)

def stopAll (now : ℤ) (s : Recorder) : Recorder :=
  let s := s.recorders.entries.foldl
    (fun s entry => if entry.2.state.isRecording then s.finalizeSegment entry.2 now else s) s
  { s with recorders := ∅ }

/-- `FlushPending`, on its own. -/
def flush (s : Recorder) : Recorder :=
  { s with
    index := (s.indexer.getD []).foldl PendingOp.apply s.index
    indexer := s.indexer.map fun _ => [] }

/-- The index as it is once the queue is applied. -/
def flushedIndex (s : Recorder) : RecordIndex := s.flush.index

end Recorder

/-- A call, with the clock, or a flush of the indexer. -/
inductive RecorderOp
  | startRecording (channelId : ℤ) (config : RecordConfig) (now : ℤ)
  | writeFrame (channelId : ℤ) (size : ℕ) (pts : ℤ) (isKeyframe : Bool) (now : ℤ)
  | stopRecording (channelId now : ℤ)
  | stopAll (now : ℤ)
  | flush

namespace Recorder

def step (s : Recorder) : RecorderOp → Recorder
  | .startRecording channelId config now => (s.startRecording channelId config now).1
  | .writeFrame channelId size pts isKeyframe now =>
      (s.writeFrame segmentPath channelId size pts isKeyframe now).1
  | .stopRecording channelId now => (s.stopRecording channelId now).1
  | .stopAll now => s.stopAll now
  | .flush => s.flush

end Recorder

end LoongNvr.Storage
