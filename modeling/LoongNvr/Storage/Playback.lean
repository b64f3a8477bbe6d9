import Mathlib.Data.List.Basic
import Mathlib.Tactic.Ring

/-!
# Storage — Playback

`Playback`, the reader of recorded segments.  A call ends in a `Fault` where the source would
use a null `fmt_ctx_` or index a vector out of its range; what the index returns and what the
segment files do is given with each call.

* `Session`, `step`: a playback object under any sequence of calls.
* `targetSegment_lt`: `Seek` picks an existing segment if there is one.
* `openSegmentFile_kept`: what `OpenSegmentFile` leaves as it was, whether it succeeds or not.
-/

namespace LoongNvr.Storage

/-! ### Recorded files -/

structure Rational where
  num : ℤ
  den : ℤ
  deriving DecidableEq, Repr

/-- `av_rescale_q(a, bq, cq)`: `a * bq / cq`, rounded to the nearest, halves away from zero. -/
def rescaleQ (a : ℤ) (bq cq : Rational) : ℤ :=
  let b := bq.num * cq.den
  let c := cq.num * bq.den
  if c ≤ 0 ∨ b < 0 then -2 ^ 63
  else if a < 0 then -((-a * b + c / 2) / c)
  else (a * b + c / 2) / c

/-- A stream of a file: whether it is video, its time base, and its picture's size. -/
structure Stream where
  isVideo : Bool
  timeBase : Rational
  width : ℤ
  height : ℤ
  deriving DecidableEq, Repr

structure Packet where
  streamIndex : ℤ
  isKey : Bool
  data : List UInt8
  pts : ℤ
  dts : ℤ
  deriving DecidableEq, Repr

/-- An open file: its streams, and the packets `av_read_frame` returns before it fails. -/
structure FormatContext where
  streams : List Stream
  packets : List Packet
  deriving DecidableEq, Repr

/-- What comes of `avformat_open_input` and `avformat_find_stream_info`. -/
inductive OpenOutcome
  | failed
  | noStreamInfo
  | opened (ctx : FormatContext)
  deriving DecidableEq, Repr

/-- What opening a path comes to during a call. -/
abbrev Files := String → OpenOutcome

structure SegmentInfo where
  startTime : ℤ
  endTime : ℤ
  filePath : String
  deriving DecidableEq, Repr

/-! ### The playback object -/

inductive PlaybackSpeed
  | half
  | normal
  | double
  | quad
  | octa
  deriving DecidableEq, Repr

/-- `static_cast<int>(speed)` -/
def PlaybackSpeed.toInt : PlaybackSpeed → ℤ
  | .half => -2
  | .normal => 1
  | .double => 2
  | .quad => 4
  | .octa => 8

inductive PlaybackState
  | idle
  | playing
  | paused
  | seeking
  | endOfStream
  | error
  deriving DecidableEq, Repr

structure PlaybackFrame where
  data : List UInt8
  pts : ℤ
  dts : ℤ
  isKeyframe : Bool
  width : ℤ
  height : ℤ
  deriving DecidableEq, Repr

structure Playback where
  segments : List SegmentInfo := []
  currentSegmentIdx : ℕ := 0
  fmtCtx : Option FormatContext := none
  videoStreamIdx : ℤ := -1
  state : PlaybackState := .idle
  speed : PlaybackSpeed := .normal
  currentPositionMs : ℤ := 0
  channelId : ℤ := -1
  startTimeMs : ℤ := 0
  endTimeMs : ℤ := 0
  deriving DecidableEq, Repr

/-- How a call can end other than by returning. -/
inductive Fault
  | nullFmtCtx
  | segmentOutOfRange
  | streamOutOfRange
  deriving DecidableEq, Repr

namespace Playback

/-- `segments_[i]` -/
def segmentAt (p : Playback) (i : ℕ) : Except Fault SegmentInfo :=
  match p.segments[i]? with
  | some segment => .ok segment
  | none => .error .segmentOutOfRange

/-- `fmt_ctx_->…` and `av_read_frame(fmt_ctx_, …)`.  Besides an open file it asks for the segment
the file is of. -/
def useFile (p : Playback) : Except Fault FormatContext :=
  match p.fmtCtx with
  | none => .error .nullFmtCtx
  | some ctx =>
      if p.currentSegmentIdx < p.segments.length then .ok ctx else .error .segmentOutOfRange

/-- `fmt_ctx_->streams[video_stream_idx_]` -/
def videoStream (p : Playback) (ctx : FormatContext) : Except Fault Stream :=
  if p.videoStreamIdx < 0 then .error .streamOutOfRange
  else
    match ctx.streams[p.videoStreamIdx.toNat]? with
    | some stream => .ok stream
    | none => .error .streamOutOfRange

def closeSegmentFile (p : Playback) : Playback := { p with fmtCtx := none, videoStreamIdx := -1 }

/-- The file is left open only where it has a video stream, the first of which is taken. -/
def openSegmentFile (files : Files) (path : String) (p : Playback) : Playback × Bool :=
  let p := p.closeSegmentFile
  match files path with
  | .failed => (p, false)
  | .noStreamInfo => (p, false)
  | .opened ctx =>
      match ctx.streams.findIdx? (·.isVideo) with
      | some i => ({ p with fmtCtx := some ctx, videoStreamIdx := i }, true)
      | none => (p, false)

def close (p : Playback) : Playback :=
  { p.closeSegmentFile with
    segments := []
    currentSegmentIdx := 0
    state := .idle
    currentPositionMs := 0
    channelId := -1 }

/-- `Open`; `segments` is what the index returns. -/
def openRange (channelId startTimeMs endTimeMs : ℤ) (segments : List SegmentInfo) (files : Files)
    (p : Playback) : Except Fault (Playback × Bool) :=
  let p := if p.state ≠ .idle then p.close else p
  let p := { p with
    channelId := channelId, startTimeMs := startTimeMs, endTimeMs := endTimeMs
    segments := segments }
  if segments = [] then .ok ({ p with state := .error }, false)
  else do
    let p := { p with currentSegmentIdx := 0 }
    let first ← p.segmentAt 0
    let (p, opened) := p.openSegmentFile files first.filePath
    if opened then .ok ({ p with state := .playing, currentPositionMs := first.startTime }, true)
    else .ok ({ p with state := .error }, false)

/-- No file is open, and the next segment is the current one. -/
def toNextSegment (p : Playback) : Playback :=
  { p.closeSegmentFile with currentSegmentIdx := p.currentSegmentIdx + 1 }

def advanceToNextSegment (files : Files) (p : Playback) : Except Fault (Playback × Bool) :=
  let p := p.toNextSegment
  if p.currentSegmentIdx ≥ p.segments.length then .ok (p, false)
  else do
    let segment ← p.segmentAt p.currentSegmentIdx
    .ok (p.openSegmentFile files segment.filePath)

/-- The next packet of the video stream that the speed does not skip, and those after it. -/
def nextPacket (speed : PlaybackSpeed) (videoStreamIdx : ℤ) :
    List Packet → Option (Packet × List Packet)
  | [] => none
  | pkt :: packets =>
      if pkt.streamIndex ≠ videoStreamIdx then nextPacket speed videoStreamIdx packets
      else if speed.toInt > 1 ∧ !pkt.isKey then nextPacket speed videoStreamIdx packets
      else some (pkt, packets)

def segmentTimeToAbsoluteMs (p : Playback) (ptsUs : ℤ) : ℤ :=
  match p.segments[p.currentSegmentIdx]? with
  | none => 0
  | some segment => segment.startTime + ptsUs.tdiv 1000

/-- The frame of a packet, in microseconds. -/
def frameOf (stream : Stream) (pkt : Packet) : PlaybackFrame where
  data := pkt.data
  pts := rescaleQ pkt.pts stream.timeBase ⟨1, 1000000⟩
  dts := rescaleQ pkt.dts stream.timeBase ⟨1, 1000000⟩
  isKeyframe := pkt.isKey
  width := stream.width
  height := stream.height

/-- After a packet was read: those after it, and the position it is at. -/
def delivered (ctx : FormatContext) (frame : PlaybackFrame) (packets : List Packet)
    (p : Playback) : Playback :=
  { p with
    fmtCtx := some { ctx with packets := packets }
    currentPositionMs := p.segmentTimeToAbsoluteMs frame.pts }

def deliver (ctx : FormatContext) (pkt : Packet) (packets : List Packet) (p : Playback) :
    Except Fault (Playback × Option PlaybackFrame) := do
  let stream ← p.videoStream ctx
  let frame := frameOf stream pkt
  .ok (p.delivered ctx frame packets, some frame)

theorem segmentAt_eq {p : Playback} {i : ℕ} (h : i < p.segments.length) :
    p.segmentAt i = .ok p.segments[i] := by
  rw [segmentAt, List.getElem?_eq_getElem h]

theorem segmentAt_of_le {p : Playback} {i : ℕ} (h : p.segments.length ≤ i) :
    p.segmentAt i = .error .segmentOutOfRange := by
  rw [segmentAt, List.getElem?_eq_none h]

/-- What is left of the playback object after `OpenSegmentFile`. -/
theorem openSegmentFile_kept (files : Files) (path : String) (p : Playback) :
    ∃ ctx i, (p.openSegmentFile files path).1 = { p with fmtCtx := ctx, videoStreamIdx := i } := by
  rw [openSegmentFile]
  split
  · exact ⟨none, -1, rfl⟩
  · exact ⟨none, -1, rfl⟩
  · split
    · exact ⟨_, _, rfl⟩
    · exact ⟨none, -1, rfl⟩

theorem advanceToNextSegment_last {p : Playback} (files : Files)
    (h : p.segments.length ≤ p.currentSegmentIdx + 1) :
    p.advanceToNextSegment files = .ok (p.toNextSegment, false) := if_pos h

theorem advanceToNextSegment_next {p : Playback} (files : Files)
    (h : p.currentSegmentIdx + 1 < p.segments.length) :
    p.advanceToNextSegment files =
      .ok (p.toNextSegment.openSegmentFile files p.segments[p.currentSegmentIdx + 1].filePath) := by
  refine (if_neg (Nat.not_le.mpr h)).trans ?_
  have hseg : p.toNextSegment.segmentAt (p.currentSegmentIdx + 1) = _ := segmentAt_eq h
  change (p.toNextSegment.segmentAt (p.currentSegmentIdx + 1) >>= fun segment =>
    .ok (p.toNextSegment.openSegmentFile files segment.filePath)) = _
  rw [hseg]
  rfl

/-- A segment that was advanced to. -/
theorem lt_of_advanceToNextSegment {files : Files} {p p' : Playback}
    (h : p.advanceToNextSegment files = .ok (p', true)) :
    p'.segments = p.segments ∧ p'.currentSegmentIdx = p.currentSegmentIdx + 1 ∧
      p.currentSegmentIdx + 1 < p.segments.length := by
  rcases Nat.lt_or_ge (p.currentSegmentIdx + 1) p.segments.length with hlt | hge
  · rw [advanceToNextSegment_next files hlt] at h
    obtain ⟨ctx, i, hkept⟩ := openSegmentFile_kept files
      p.segments[p.currentSegmentIdx + 1].filePath p.toNextSegment
    obtain rfl : _ = p' := congrArg Prod.fst (Except.ok.inj h)
    rw [hkept]
    exact ⟨rfl, rfl, hlt⟩
  · rw [advanceToNextSegment_last files hge] at h
    simp at h

/-- The loop of `ReadNextPacket`: the next packet, from this segment or the ones after it. -/
def readLoop (files : Files) (p : Playback) : Except Fault (Playback × Option PlaybackFrame) :=
  match p.useFile with
  | .error fault => .error fault
  | .ok ctx =>
      match nextPacket p.speed p.videoStreamIdx ctx.packets with
      | some (pkt, packets) => p.deliver ctx pkt packets
      | none =>
          match _h : p.advanceToNextSegment files with
          | .error fault => .error fault
          | .ok (p', false) => .ok ({ p' with state := .endOfStream }, none)
          | .ok (p', true) => readLoop files p'
termination_by p.segments.length - p.currentSegmentIdx
decreasing_by
  obtain ⟨hsegments, hidx, hlt⟩ := lt_of_advanceToNextSegment _h
  rw [hsegments, hidx]
  omega

def readNextPacket (files : Files) (p : Playback) :
    Except Fault (Playback × Option PlaybackFrame) :=
  if p.state ≠ .playing then .ok (p, none) else p.readLoop files

/-- The segment `Seek` goes to: the first that contains the time, else the one before the first
that starts later, else the last. -/
def targetSegment (timestampMs : ℤ) (segments : List SegmentInfo) : ℕ :=
  match segments.findIdx? fun s => s.startTime ≤ timestampMs && timestampMs ≤ s.endTime with
  | some i => i
  | none =>
      match segments.findIdx? fun s => s.startTime > timestampMs with
      | some i => if i > 0 then i - 1 else 0
      | none => (segments.length + (2 ^ 64 - 1)) % 2 ^ 64

/-- The part of `Seek` that opens the target segment if it is not the current one. -/
def openTarget (files : Files) (target : ℕ) (p : Playback) : Except Fault (Playback × Bool) :=
  if target ≠ p.currentSegmentIdx then do
    let p := { p.closeSegmentFile with currentSegmentIdx := target }
    let segment ← p.segmentAt target
    .ok (p.openSegmentFile files segment.filePath)
  else .ok (p, true)

/-- The part of `Seek` that seeks within the file; `avSeekFrame` is what `av_seek_frame` comes to,
and the packets left after it. -/
def seekInFile (timestampMs : ℤ) (target : ℕ) (avSeekFrame : ℤ → Bool × List Packet)
    (prevState : PlaybackState) (p : Playback) : Except Fault (Playback × Bool) := do
  let segment ← p.segmentAt target
  let relativeMs := timestampMs - segment.startTime
  let relativeMs := if relativeMs < 0 then 0 else relativeMs
  let ctx ← p.useFile
  let stream ← p.videoStream ctx
  let seekTs := rescaleQ (relativeMs * 1000) ⟨1, 1000000⟩ stream.timeBase
  let p := { p with fmtCtx := some { ctx with packets := (avSeekFrame seekTs).2 } }
  if (avSeekFrame seekTs).1 then
    .ok ({ p with currentPositionMs := timestampMs, state := .playing }, true)
  else .ok ({ p with state := prevState }, false)

def seek (timestampMs : ℤ) (files : Files) (avSeekFrame : ℤ → Bool × List Packet) (p : Playback) :
    Except Fault (Playback × Bool) :=
  if p.state = .idle then .ok (p, false)
  else do
    let target := targetSegment timestampMs p.segments
    let (q, opened) ← { p with state := .seeking }.openTarget files target
    if opened then q.seekInFile timestampMs target avSeekFrame p.state
    else .ok ({ q with state := .error }, false)

def setSpeed (speed : PlaybackSpeed) (p : Playback) : Playback := { p with speed := speed }

/-- One frame at normal speed; the session is paused after it. -/
def stepForward (files : Files) (p : Playback) : Except Fault (Playback × Option PlaybackFrame) :=
  if p.state ≠ .playing ∧ p.state ≠ .paused then .ok (p, none)
  else do
    let saved := p.speed
    let (p, frame) ← { p with speed := .normal }.readNextPacket files
    let p := { p with speed := saved }
    if frame.isSome then return ({ p with state := .paused }, frame)
    return (p, none)

theorem targetSegment_lt (timestampMs : ℤ) {segments : List SegmentInfo} (h : segments ≠ []) :
    targetSegment timestampMs segments < segments.length := by
  have hpos : 0 < segments.length := List.length_pos_iff.mpr h
  rw [targetSegment]
  split
  case h_1 i hi => exact (List.findIdx?_eq_some_iff_getElem.mp hi).1
  case h_2 =>
    split
    case h_1 i hi =>
      have hlt : i < segments.length := (List.findIdx?_eq_some_iff_getElem.mp hi).1
      split <;> omega
    case h_2 => omega

end Playback

/-! ### Sessions -/

/-- A call, with what the index returns and the files do during it. -/
inductive Call
  | openRange (channelId startTimeMs endTimeMs : ℤ) (segments : List SegmentInfo) (files : Files)
  | close
  | readNextPacket (files : Files)
  | seek (timestampMs : ℤ) (files : Files) (avSeekFrame : ℤ → Bool × List Packet)
  | setSpeed (speed : PlaybackSpeed)
  | stepForward (files : Files)

/-- The playback object, or the fault a call has ended in. -/
abbrev Session := Except Fault Playback

def Playback.call (p : Playback) : Call → Session
  | .openRange channelId startTimeMs endTimeMs segments files =>
      (p.openRange channelId startTimeMs endTimeMs segments files).map Prod.fst
  | .close => .ok p.close
  | .readNextPacket files => (p.readNextPacket files).map Prod.fst
  | .seek timestampMs files avSeekFrame => (p.seek timestampMs files avSeekFrame).map Prod.fst
  | .setSpeed speed => .ok (p.setSpeed speed)
  | .stepForward files => (p.stepForward files).map Prod.fst

def step (session : Session) (call : Call) : Session := session.bind (·.call call)

end LoongNvr.Storage
