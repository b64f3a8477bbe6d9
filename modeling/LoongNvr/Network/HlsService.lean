import LoongNvr.Network.TsMuxer
import LoongNvr.Core.Types
import LoongNvr.Support.Runs
import Mathlib.Data.List.Induction
import Mathlib.Data.List.TakeWhile
import Mathlib.Data.Rat.Floor

/-!
# Network — HlsService

One registered channel of `HlsService`: the frames pushed into it, cut into segments at keyframes,
the window of segments it stores, and the playlist of that window.

* `Recording`: the frames of each segment instead of its bytes, and when it was cut.
* `pushAll_eq`, `pushes_eq`: the service is at every point what its recording says, unless `reserve`
  throws.
* `pushAll_throws`, `pushes_throws`: which it does at the first keyframe when the size cap is
  negative, and all frames behind that go into one segment.
* `WithinCap`: a run of frames that was within the cap before its last one.
* `withinCap_push`: a frame keeps the segments within the cap exactly if it is not appended to one
  above it.
* `sizeCapped_iff`: they are within it through a run exactly when no frame is.
-/

namespace LoongNvr.Network
open Support LoongNvr.Core

namespace HlsService

/-! ### The service -/

structure HlsConfig where
  segmentDurationMs : ℤ := 2000
  maxSegments : ℤ := 5
  maxSegmentSizeKb : ℤ := 4096
  deriving DecidableEq, Repr

structure HlsSegment where
  sequence : ℕ := 0
  durationSec : ℚ := 0
  data : List UInt8 := []
  deriving DecidableEq

structure ChannelHls where
  muxer : TsMuxer := {}
  segments : List HlsSegment := []
  nextSequence : ℕ := 0
  currentSegment : Option (List UInt8) := none
  segmentStartPts : ℤ := -1
  waitingForKeyframe : Bool := true
  active : Bool := true
  deriving DecidableEq

/-- What `PushFrame` is called with. -/
structure Frame where
  data : List UInt8
  pts : ℤ
  isKeyframe : Bool
  deriving DecidableEq, Repr

/-- `reserve(static_cast<size_t>(max_segment_size_kb) * 1024)`: a negative `int` becomes a size that
no vector can have. -/
def HlsConfig.reserve (config : HlsConfig) : Checked Unit :=
  if config.maxSegmentSizeKb < 0 then .error .lengthError else .ok ()

/-- The sliding window; a negative limit, cast to `size_t`, is never passed. -/
def dropOldest (maxSegments : ℤ) : List HlsSegment → List HlsSegment
  | [] => []
  | segment :: segments =>
      if 0 ≤ maxSegments ∧ maxSegments < (segment :: segments).length then
        dropOldest maxSegments segments
      else segment :: segments

namespace ChannelHls

def finalizeSegment (config : HlsConfig) (endPts : ℤ) (stream : ChannelHls) : ChannelHls :=
  match stream.currentSegment with
  | none | some [] => stream
  | some data =>
      let durationSec : ℚ :=
        if stream.segmentStartPts ≥ 0 ∧ endPts > stream.segmentStartPts then
          ((endPts - stream.segmentStartPts : ℤ) : ℚ) / 1000000
        else (config.segmentDurationMs : ℚ) / 1000
      { stream with
        nextSequence := stream.nextSequence + 1
        segments := dropOldest config.maxSegments
          (stream.segments ++ [⟨stream.nextSequence, durationSec, data⟩])
        currentSegment := none
        segmentStartPts := -1 }

/-- Whether a frame ends the current segment: a keyframe, and its duration is reached. -/
def Cuts (config : HlsConfig) (frame : Frame) (stream : ChannelHls) : Prop :=
  frame.isKeyframe ∧ stream.currentSegment.isSome ∧ stream.segmentStartPts ≥ 0 ∧
    frame.pts - stream.segmentStartPts ≥ config.segmentDurationMs * 1000

instance (config : HlsConfig) (frame : Frame) (stream : ChannelHls) :
    Decidable (stream.Cuts config frame) := inferInstanceAs (Decidable (_ ∧ _))

/-- A new segment if there is none, with the tables at its start.  Where `reserve` throws, the
segment is there and has nothing in it. -/
def startSegment (config : HlsConfig) (pts : ℤ) (stream : ChannelHls) :
    ChannelHls × Checked Unit :=
  if stream.currentSegment.isSome then (stream, .ok ())
  else
    match config.reserve with
    | .error fault => ({ stream with currentSegment := some [] }, .error fault)
    | .ok () =>
        let (muxer, psi) := TsMuxer.reset.writePsiTables
        ({ stream with currentSegment := some psi, segmentStartPts := pts, muxer := muxer },
          .ok ())

/-- The frame as transport stream packets behind what the segment has. -/
def append (frame : Frame) (stream : ChannelHls) : ChannelHls :=
  let (muxer, tsData) := stream.muxer.writeAccessUnit frame.data frame.pts frame.isKeyframe
  { stream with muxer := muxer, currentSegment := stream.currentSegment.map (· ++ tsData) }

def seenKeyframe (stream : ChannelHls) : ChannelHls := { stream with waitingForKeyframe := false }

/-- The frame in the current segment, which is begun if there is none. -/
def addFrame (config : HlsConfig) (frame : Frame) (stream : ChannelHls) :
    ChannelHls × Checked Unit :=
  match stream.startSegment config frame.pts with
  | (stream, .ok ()) => (stream.append frame, .ok ())
  | (stream, .error fault) => (stream, .error fault)

/-- What a call leaves of the channel, and how it ends. -/
def pushFrame (config : HlsConfig) (stream : ChannelHls) (frame : Frame) :
    ChannelHls × Checked Unit :=
  if !stream.active then (stream, .ok ())
  else if stream.waitingForKeyframe && !frame.isKeyframe then (stream, .ok ())
  else
    let stream := stream.seenKeyframe
    let stream := if stream.Cuts config frame then stream.finalizeSegment config frame.pts
      else stream
    stream.addFrame config frame

/-- The data of the stored segment with a number. -/
def getSegment (sequence : ℕ) (stream : ChannelHls) : Option (List UInt8) :=
  (stream.segments.find? (·.sequence = sequence)).map (·.data)

end ChannelHls

/-- The channel after the frames pushed since it was registered, whether calls have thrown or not. -/
def pushes (config : HlsConfig) (frames : List Frame) : ChannelHls :=
  frames.foldl (fun stream frame => (stream.pushFrame config frame).1) {}

/-- The same if all calls return. -/
def pushAll (config : HlsConfig) (frames : List Frame) : Checked ChannelHls :=
  frames.foldlM (fun stream frame =>
    (stream.pushFrame config frame).2.map fun () => (stream.pushFrame config frame).1) {}

/-! ### The playlist -/

/-- How `std::setprecision(3)` rounds a number of seconds, to a nearest thousandth. -/
structure Rounding where
  toThousandths : ℚ → ℤ
  nearest : ∀ x, |x * 1000 - toThousandths x| ≤ 1 / 2

/-- What a playlist says: an entry has its duration in thousandths of a second, and its number. -/
structure Playlist where
  targetDuration : ℤ
  mediaSequence : ℕ
  entries : List (ℤ × ℕ)
  deriving DecidableEq, Repr

/-- `static_cast<int>(max_duration) + 1`.  Where an `int` does not hold these the source leaves the
value open; here it wraps. -/
def targetDuration (segments : List HlsSegment) : ℤ :=
  let maxDuration := segments.foldl (fun longest segment => max longest segment.durationSec) 0
  toInt32 (toInt32 ⌊maxDuration⌋ + 1)

def ChannelHls.playlist (rounding : Rounding) (stream : ChannelHls) : Option Playlist :=
  stream.segments.head?.map fun front =>
    { targetDuration := targetDuration stream.segments
      mediaSequence := front.sequence
      entries := stream.segments.map fun segment =>
        (rounding.toThousandths segment.durationSec, segment.sequence) }

/-- Three digits behind the point. -/
def fixed3 (thousandths : ℤ) : String :=
  let digits := (thousandths % 1000).toNat
  toString (thousandths / 1000) ++ "." ++
    (if digits < 10 then "00" else if digits < 100 then "0" else "") ++ toString digits

def Playlist.text (playlist : Playlist) : String :=
  "#EXTM3U\n" ++ "#EXT-X-VERSION:3\n" ++
    "#EXT-X-TARGETDURATION:" ++ toString playlist.targetDuration ++ "\n" ++
    "#EXT-X-MEDIA-SEQUENCE:" ++ toString playlist.mediaSequence ++ "\n" ++
    String.join (playlist.entries.map fun (duration, sequence) =>
      "#EXTINF:" ++ fixed3 duration ++ ",\n" ++ toString sequence ++ ".ts\n")

/-- The text of the playlist, empty if no segment is stored. -/
def ChannelHls.generatePlaylist (rounding : Rounding) (stream : ChannelHls) : String :=
  ((stream.playlist rounding).map Playlist.text).getD ""

/-! ### What is recorded -/

/-- The frames of every segment ever finished, with the time it was cut at, and those of the
current one. -/
structure Recording where
  finished : List (List Frame × ℤ) := []
  current : List Frame := []
  deriving DecidableEq, Repr

/-- The first presentation time of a run of frames. -/
def startPts (run : List Frame) : ℤ := (run.head?.map (·.pts)).getD (-1)

/-- The muxer and the bytes after a run of frames, by what they were before it. -/
def muxFrom (start : TsMuxer × List UInt8) (run : List Frame) : TsMuxer × List UInt8 :=
  run.foldl (fun out frame =>
    let (muxer, tsData) := out.1.writeAccessUnit frame.data frame.pts frame.isKeyframe
    (muxer, out.2 ++ tsData)) start

/-- The muxer and the bytes after a run of frames behind the tables. -/
def muxFrames (run : List Frame) : TsMuxer × List UInt8 := muxFrom TsMuxer.reset.writePsiTables run

/-- The segment of a finished run. -/
def segmentOf (config : HlsConfig) (run : List Frame × ℤ) (sequence : ℕ) : HlsSegment where
  sequence := sequence
  durationSec :=
    if startPts run.1 ≥ 0 ∧ run.2 > startPts run.1 then
      ((run.2 - startPts run.1 : ℤ) : ℚ) / 1000000
    else (config.segmentDurationMs : ℚ) / 1000
  data := (muxFrames run.1).2

namespace Recording

def Cuts (config : HlsConfig) (frame : Frame) (rec : Recording) : Prop :=
  frame.isKeyframe ∧ rec.current ≠ [] ∧ startPts rec.current ≥ 0 ∧
    frame.pts - startPts rec.current ≥ config.segmentDurationMs * 1000

instance (config : HlsConfig) (frame : Frame) (rec : Recording) :
    Decidable (rec.Cuts config frame) := inferInstanceAs (Decidable (_ ∧ _))

def push (config : HlsConfig) (rec : Recording) (frame : Frame) : Recording :=
  if rec.current = [] ∧ !frame.isKeyframe then rec
  else if rec.Cuts config frame then
    { finished := rec.finished ++ [(rec.current, frame.pts)], current := [frame] }
  else { rec with current := rec.current ++ [frame] }

/-- The segments of all finished runs. -/
def segments (config : HlsConfig) (rec : Recording) : List HlsSegment :=
  rec.finished.zipIdx.map fun run => segmentOf config run.1 run.2

/-- The channel with this recorded. -/
def stream (config : HlsConfig) (rec : Recording) : ChannelHls where
  muxer := if rec.current = [] then {} else (muxFrames rec.current).1
  segments := dropOldest config.maxSegments (rec.segments config)
  nextSequence := rec.finished.length
  currentSegment := if rec.current = [] then none else some (muxFrames rec.current).2
  segmentStartPts := startPts rec.current
  waitingForKeyframe := rec.current.isEmpty

end Recording

/-- What the frames pushed into a channel leave recorded. -/
def record (config : HlsConfig) (frames : List Frame) : Recording :=
  frames.foldl (Recording.push config) {}

/-! ### The service does what its recording says -/

theorem dropOldest_concat (maxSegments : ℤ) (segments : List HlsSegment) (segment : HlsSegment) :
    dropOldest maxSegments (dropOldest maxSegments segments ++ [segment]) =
      dropOldest maxSegments (segments ++ [segment]) := by
  induction segments with
  | nil => rfl
  | cons first segments ih =>
      by_cases hfull : 0 ≤ maxSegments ∧ maxSegments < (first :: segments).length
      · have hmore : 0 ≤ maxSegments ∧
            maxSegments < (first :: (segments ++ [segment])).length := by
          refine ⟨hfull.1, hfull.2.trans ?_⟩
          simp
        rw [dropOldest, if_pos hfull, ih, List.cons_append, dropOldest, if_pos hmore]
      · rw [dropOldest, if_neg hfull]

theorem mem_of_mem_dropOldest {maxSegments : ℤ} {segments : List HlsSegment}
    {segment : HlsSegment} (h : segment ∈ dropOldest maxSegments segments) :
    segment ∈ segments := by
  induction segments with
  | nil => exact absurd h List.not_mem_nil
  | cons first segments ih =>
      rw [dropOldest] at h
      split at h
      · exact List.mem_cons_of_mem _ (ih h)
      · exact h

theorem muxFrom_concat (start : TsMuxer × List UInt8) (run : List Frame) (frame : Frame) :
    muxFrom start (run ++ [frame]) =
      let (muxer, tsData) :=
        (muxFrom start run).1.writeAccessUnit frame.data frame.pts frame.isKeyframe
      (muxer, (muxFrom start run).2 ++ tsData) := by
  rw [muxFrom, List.foldl_append]
  rfl

theorem muxFrames_concat (run : List Frame) (frame : Frame) :
    muxFrames (run ++ [frame]) =
      let (muxer, tsData) :=
        (muxFrames run).1.writeAccessUnit frame.data frame.pts frame.isKeyframe
      (muxer, (muxFrames run).2 ++ tsData) :=
  muxFrom_concat _ run frame

/-- A segment begins with the tables. -/
theorem tables_first (run : List Frame) : TsMuxer.reset.writePsiTables.2 <+: (muxFrames run).2 := by
  induction run using List.reverseRecOn with
  | nil => exact List.prefix_refl _
  | append_singleton run frame ih =>
      rw [muxFrames_concat]
      exact ih.trans (List.prefix_append _ _)

theorem muxFrames_ne_nil (run : List Frame) : (muxFrames run).2 ≠ [] := by
  intro h
  have hprefix := (tables_first run).length_le
  rw [h, TsMuxer.length_writePsiTables] at hprefix
  exact absurd hprefix (by decide)

namespace Recording

variable {config : HlsConfig} {rec : Recording} {frame : Frame}

theorem segments_concat (config : HlsConfig) (finished : List (List Frame × ℤ))
    (run : List Frame × ℤ) (current : List Frame) :
    Recording.segments config ⟨finished ++ [run], current⟩ =
      Recording.segments config ⟨finished, current⟩ ++
        [segmentOf config run finished.length] := by
  simp [Recording.segments, List.zipIdx_append]

theorem cuts_stream : (rec.stream config).Cuts config frame ↔ rec.Cuts config frame := by
  simp only [ChannelHls.Cuts, Cuts, stream]
  by_cases h : rec.current = [] <;> simp [h]

/-- A frame that begins a segment. -/
theorem addFrame_of_none (hreserve : 0 ≤ config.maxSegmentSizeKb) {stream : ChannelHls}
    (hnone : stream.currentSegment = none) (frame : Frame) :
    stream.addFrame config frame =
      ({ stream with
        muxer := (muxFrames [frame]).1
        currentSegment := some (muxFrames [frame]).2
        segmentStartPts := frame.pts }, .ok ()) := by
  have hok : config.reserve = .ok () := if_neg (not_lt.mpr hreserve)
  rw [ChannelHls.addFrame, ChannelHls.startSegment, hnone, hok]
  rfl

/-- A frame for the segment that is there. -/
theorem addFrame_of_some {stream : ChannelHls} {data : List UInt8}
    (hsome : stream.currentSegment = some data) (frame : Frame) :
    stream.addFrame config frame = (stream.append frame, .ok ()) := by
  rw [ChannelHls.addFrame, ChannelHls.startSegment, hsome]
  rfl

theorem finalizeSegment_stream (hcurrent : rec.current ≠ []) (endPts : ℤ) :
    (rec.stream config).finalizeSegment config endPts =
      { rec.stream config with
        nextSequence := rec.finished.length + 1
        segments := dropOldest config.maxSegments
          (Recording.segments config ⟨rec.finished ++ [(rec.current, endPts)], []⟩)
        currentSegment := none
        segmentStartPts := -1 } := by
  obtain ⟨byte, data, hdata⟩ := List.exists_cons_of_ne_nil (muxFrames_ne_nil rec.current)
  have hsegment : (rec.stream config).currentSegment = some (byte :: data) := by
    rw [← hdata]
    exact if_neg hcurrent
  rw [ChannelHls.finalizeSegment, hsegment, segments_concat, ← dropOldest_concat, segmentOf,
    hdata]
  rfl

/-- The first keyframe begins the first segment. -/
theorem pushFrame_first (hreserve : 0 ≤ config.maxSegmentSizeKb) (hfirst : rec.current = [])
    (hkey : frame.isKeyframe = true) :
    (rec.stream config).pushFrame config frame =
      (Recording.stream config { rec with current := [frame] }, .ok ()) := by
  have hnone : (rec.stream config).seenKeyframe.currentSegment = none := if_pos hfirst
  have hcuts : ¬ (rec.stream config).seenKeyframe.Cuts config frame := by
    rintro ⟨-, hsome, -⟩
    rw [hnone] at hsome
    exact absurd hsome (by simp)
  have hactive : (rec.stream config).active = true := rfl
  simp only [ChannelHls.pushFrame, hactive, hkey, Bool.not_true, Bool.and_false,
    Bool.false_eq_true, if_false]
  rw [if_neg hcuts, addFrame_of_none hreserve hnone]
  rfl

/-- A frame behind others. -/
theorem pushFrame_next (hreserve : 0 ≤ config.maxSegmentSizeKb) (hnext : rec.current ≠ [])
    (frame : Frame) :
    (rec.stream config).pushFrame config frame =
      if rec.Cuts config frame then
        (Recording.stream config ⟨rec.finished ++ [(rec.current, frame.pts)], [frame]⟩, .ok ())
      else (Recording.stream config { rec with current := rec.current ++ [frame] }, .ok ()) := by
  obtain ⟨first, more, hcurrent⟩ := List.exists_cons_of_ne_nil hnext
  have hactive : (rec.stream config).active = true := rfl
  have hwaiting : (rec.stream config).waitingForKeyframe = false := by
    simp [Recording.stream, hcurrent]
  have hsame : (rec.stream config).seenKeyframe = rec.stream config := by
    simp [ChannelHls.seenKeyframe, Recording.stream, hcurrent]
  simp only [ChannelHls.pushFrame, hactive, hwaiting, Bool.not_true, Bool.false_and,
    Bool.false_eq_true, if_false, hsame, cuts_stream]
  split
  · rw [finalizeSegment_stream hnext, addFrame_of_none hreserve rfl]
    simp [Recording.stream, Recording.segments, startPts, hcurrent]
  · have hsome : (rec.stream config).currentSegment = some (muxFrames rec.current).2 :=
      if_neg hnext
    rw [addFrame_of_some hsome]
    have hmux := muxFrames_concat rec.current frame
    rw [hcurrent, List.cons_append] at hmux
    simp [Recording.stream, Recording.segments, startPts, hcurrent, ChannelHls.append, hmux]

/-- **One frame.** -/
theorem pushFrame_stream (hreserve : 0 ≤ config.maxSegmentSizeKb) (rec : Recording)
    (frame : Frame) :
    (rec.stream config).pushFrame config frame =
      ((rec.push config frame).stream config, .ok ()) := by
  by_cases hfirst : rec.current = []
  · have hno : ¬ rec.Cuts config frame := fun h => h.2.1 hfirst
    cases hkey : frame.isKeyframe with
    | false =>
        have hwaiting : (rec.stream config).waitingForKeyframe = true := by
          simp [Recording.stream, hfirst]
        have hactive : (rec.stream config).active = true := rfl
        rw [push, if_pos ⟨hfirst, by simp [hkey]⟩, ChannelHls.pushFrame, hactive, hwaiting,
          hkey]
        rfl
    | true =>
        rw [push, if_neg (by simp [hkey]), if_neg hno, pushFrame_first hreserve hfirst hkey,
          hfirst]
        rfl
  · rw [push, if_neg (fun h => hfirst h.1), pushFrame_next hreserve hfirst]
    split <;> rfl

end Recording

variable {config : HlsConfig}

theorem record_concat (frames : List Frame) (frame : Frame) :
    record config (frames ++ [frame]) = (record config frames).push config frame :=
  List.foldl_append

/-- **The service is at every point what its recording says.** -/
theorem pushAll_eq (hreserve : 0 ≤ config.maxSegmentSizeKb) (frames : List Frame) :
    pushAll config frames = .ok ((record config frames).stream config) := by
  induction frames using List.reverseRecOn with
  | nil => rfl
  | append_singleton frames frame ih =>
      rw [pushAll, List.foldlM_append, ← pushAll, ih, record_concat]
      refine (bind_pure (m := Checked) _).trans ?_
      dsimp only
      rw [Recording.pushFrame_stream hreserve]
      rfl

theorem pushes_concat (frames : List Frame) (frame : Frame) :
    pushes config (frames ++ [frame]) = ((pushes config frames).pushFrame config frame).1 :=
  List.foldl_append

/-- Where all calls return, they leave what they return. -/
theorem pushes_of_pushAll {frames : List Frame} {stream : ChannelHls}
    (h : pushAll config frames = .ok stream) : pushes config frames = stream := by
  induction frames using List.reverseRecOn generalizing stream with
  | nil => exact Except.ok.inj h
  | append_singleton frames frame ih =>
      rw [pushAll, List.foldlM_append, ← pushAll] at h
      cases hbefore : pushAll config frames with
      | error fault =>
          rw [hbefore] at h
          cases h
      | ok before =>
          rw [hbefore] at h
          have hlast : (before.pushFrame config frame).2.map
              (fun () => (before.pushFrame config frame).1) = .ok stream :=
            (bind_pure (m := Checked) _).symm.trans h
          rw [pushes_concat, ih hbefore]
          cases hends : (before.pushFrame config frame).2 with
          | error fault =>
              rw [hends] at hlast
              cases hlast
          | ok =>
              rw [hends] at hlast
              exact Except.ok.inj hlast

theorem pushes_eq (hreserve : 0 ≤ config.maxSegmentSizeKb) (frames : List Frame) :
    pushes config frames = (record config frames).stream config :=
  pushes_of_pushAll (pushAll_eq hreserve frames)

/-! ### Before the first keyframe, and with a negative cap -/

theorem pushFrame_waiting {frame : Frame} (h : frame.isKeyframe = false) :
    ChannelHls.pushFrame config {} frame = ({}, .ok ()) := by
  rw [ChannelHls.pushFrame, h]
  rfl

/-- Frames before the first keyframe are dropped. -/
theorem pushAll_waiting {frames : List Frame} (h : ∀ frame ∈ frames, frame.isKeyframe = false) :
    pushAll config frames = .ok {} := by
  induction frames with
  | nil => rfl
  | cons frame frames ih =>
      obtain ⟨hframe, hframes⟩ := List.forall_mem_cons.mp h
      rw [pushAll, List.foldlM_cons, pushFrame_waiting hframe]
      exact ih hframes

theorem pushes_waiting {frames : List Frame} (h : ∀ frame ∈ frames, frame.isKeyframe = false) :
    pushes config frames = {} :=
  pushes_of_pushAll (pushAll_waiting h)

theorem record_waiting {frames : List Frame} (h : ∀ frame ∈ frames, frame.isKeyframe = false) :
    record config frames = {} := by
  induction frames with
  | nil => rfl
  | cons frame frames ih =>
      obtain ⟨hframe, hframes⟩ := List.forall_mem_cons.mp h
      have hdropped : Recording.push config {} frame = {} := if_pos ⟨rfl, by simp [hframe]⟩
      rw [record, List.foldl_cons, hdropped]
      exact ih hframes

/-- A channel whose segment was begun by a call that threw: it has no tables, and no keyframe ends
it. -/
def headless (run : List Frame) : ChannelHls where
  muxer := (muxFrom ({}, []) run).1
  currentSegment := some (muxFrom ({}, []) run).2
  waitingForKeyframe := false

theorem pushFrame_throws (hreserve : config.maxSegmentSizeKb < 0) {frame : Frame}
    (h : frame.isKeyframe = true) :
    ChannelHls.pushFrame config {} frame = (headless [], .error .lengthError) := by
  have hthrown : config.reserve = .error .lengthError := if_pos hreserve
  have hcuts : ¬ ({} : ChannelHls).seenKeyframe.Cuts config frame := fun h =>
    absurd h.2.1 (by simp [ChannelHls.seenKeyframe])
  simp only [ChannelHls.pushFrame, h, Bool.not_true, Bool.and_false, Bool.false_eq_true,
    if_false, if_neg hcuts]
  rw [ChannelHls.addFrame, ChannelHls.startSegment, hthrown]
  rfl

/-- With a negative size cap the first keyframe throws, -/
theorem pushAll_throws (hreserve : config.maxSegmentSizeKb < 0) {frames : List Frame}
    (h : ∃ frame ∈ frames, frame.isKeyframe = true) :
    pushAll config frames = .error .lengthError := by
  induction frames with
  | nil => exact absurd h (by simp)
  | cons frame frames ih =>
      rw [pushAll, List.foldlM_cons]
      cases hkey : frame.isKeyframe with
      | true =>
          rw [pushFrame_throws hreserve hkey]
          rfl
      | false =>
          obtain ⟨frame', hmem, hkey'⟩ := h
          rcases List.mem_cons.mp hmem with rfl | hmem
          · exact absurd hkey (by simp [hkey'])
          · rw [pushFrame_waiting hkey]
            exact ih ⟨frame', hmem, hkey'⟩

/-- The start of a headless segment is not known, so nothing cuts it. -/
theorem pushFrame_headless (config : HlsConfig) (run : List Frame) (frame : Frame) :
    (headless run).pushFrame config frame = (headless (run ++ [frame]), .ok ()) := by
  have hcuts : ¬ (headless run).seenKeyframe.Cuts config frame := by
    rintro ⟨-, -, hstart, -⟩
    have hstart : (-1 : ℤ) ≥ 0 := hstart
    exact absurd hstart (by decide)
  have hactive : (headless run).active = true := rfl
  have hwaiting : (headless run).waitingForKeyframe = false := rfl
  have hsome : (headless run).seenKeyframe.currentSegment = some (muxFrom ({}, []) run).2 := rfl
  simp only [ChannelHls.pushFrame, hactive, hwaiting, Bool.not_true, Bool.false_and,
    Bool.false_eq_true, if_false, if_neg hcuts]
  rw [Recording.addFrame_of_some hsome, headless, headless, muxFrom_concat]
  rfl

/-- and all frames behind it go into one segment. -/
theorem pushes_throws (hreserve : config.maxSegmentSizeKb < 0) {frames run : List Frame}
    {first : Frame} (h : frames.dropWhile (!·.isKeyframe) = first :: run) :
    pushes config frames = headless run := by
  have hrun : ∀ run begun : List Frame,
      run.foldl (fun stream frame => (ChannelHls.pushFrame config stream frame).1)
        (headless begun) = headless (begun ++ run) := by
    intro run
    induction run with
    | nil => exact fun begun => by rw [List.append_nil]; rfl
    | cons frame run ih =>
        intro begun
        rw [List.foldl_cons, pushFrame_headless, ih, List.append_assoc]
        rfl
  induction frames with
  | nil => cases h
  | cons frame frames ih =>
      rw [pushes, List.foldl_cons]
      cases hkey : frame.isKeyframe with
      | true =>
          rw [List.dropWhile_cons_of_neg (by simp [hkey])] at h
          cases h
          rw [pushFrame_throws hreserve hkey]
          exact hrun run []
      | false =>
          rw [List.dropWhile_cons_of_pos (by simp [hkey])] at h
          rw [pushFrame_waiting hkey]
          exact ih h

end HlsService

end LoongNvr.Network

/-! ### The size cap

The size cap of a segment.  `PushFrame` reserves `max_segment_size_kb` and compares no size with
it: only a keyframe ends a segment, however long that takes.
-/

namespace LoongNvr.Network
open Support LoongNvr.Core

namespace HlsService

variable {config : HlsConfig} {rec : Recording} {frame : Frame}

/-- What a segment is begun with: the tables, or nothing where `reserve` throws. -/
def HlsConfig.begun (config : HlsConfig) : TsMuxer × List UInt8 :=
  if config.maxSegmentSizeKb < 0 then ({}, []) else TsMuxer.reset.writePsiTables

/-- The bytes `WriteAccessUnit` gave for the last frame of a run. -/
def lastUnit (config : HlsConfig) (run : List Frame) : List UInt8 :=
  match run.getLast? with
  | none => []
  | some frame =>
      ((muxFrom config.begun run.dropLast).1.writeAccessUnit frame.data frame.pts
        frame.isKeyframe).2

/-- The cap and the tables, in bytes. -/
def HlsConfig.sizeCap (config : HlsConfig) : ℤ :=
  config.maxSegmentSizeKb * 1024 + TsMuxer.reset.writePsiTables.2.length

/-- The segment of a run is above the cap by no more than its last access unit. -/
def WithinCap (config : HlsConfig) (run : List Frame) : Prop :=
  ((muxFrom config.begun run).2.length : ℤ) ≤ config.sizeCap + (lastUnit config run).length

theorem muxFrom_begun (hcap : 0 ≤ config.maxSegmentSizeKb) (run : List Frame) :
    muxFrom config.begun run = muxFrames run := by
  rw [HlsConfig.begun, if_neg (not_lt.mpr hcap), muxFrames]

theorem muxFrom_eq_lastUnit (config : HlsConfig) (run : List Frame) (frame : Frame) :
    (muxFrom config.begun (run ++ [frame])).2 =
      (muxFrom config.begun run).2 ++ lastUnit config (run ++ [frame]) := by
  rw [muxFrom_concat, lastUnit, List.getLast?_concat, List.dropLast_concat]

theorem withinCap_concat (config : HlsConfig) (run : List Frame) (frame : Frame) :
    WithinCap config (run ++ [frame]) ↔
      ((muxFrom config.begun run).2.length : ℤ) ≤ config.sizeCap := by
  rw [WithinCap, muxFrom_eq_lastUnit, List.length_append, Nat.cast_add, add_le_add_iff_right]

theorem withinCap_singleton (hcap : 0 ≤ config.maxSegmentSizeKb) (frame : Frame) :
    WithinCap config [frame] := by
  refine (withinCap_concat config [] frame).mpr ?_
  have htables : (muxFrames []).2 = TsMuxer.reset.writePsiTables.2 := rfl
  rw [muxFrom_begun hcap, htables, HlsConfig.sizeCap]
  exact le_add_of_nonneg_left (mul_nonneg hcap (by norm_num))

/-- With a negative cap no segment is within it, not even an empty one. -/
theorem not_withinCap (hneg : config.maxSegmentSizeKb < 0) (run : List Frame) :
    ¬ WithinCap config run := by
  have hcap : config.sizeCap < 0 := by
    rw [HlsConfig.sizeCap, TsMuxer.length_writePsiTables, TsMuxer.kTsPacketSize]
    push_cast
    omega
  rcases run.eq_nil_or_concat with rfl | ⟨run, frame, rfl⟩
  · intro hwithin
    rw [WithinCap, HlsConfig.begun, if_pos hneg] at hwithin
    exact absurd hwithin (not_le.mpr (by simpa [muxFrom, lastUnit] using hcap))
  · rw [List.concat_eq_append, withinCap_concat]
    exact not_le.mpr (hcap.trans_le (Int.natCast_nonneg _))

/-- The frames in the segment being accumulated.  With a negative cap the first keyframe is lost as
it begins the segment, and all that follow go into it. -/
def currentRun (config : HlsConfig) (pushed : List Frame) : Option (List Frame) :=
  if config.maxSegmentSizeKb < 0 then (pushed.dropWhile (!·.isKeyframe)).tail?
  else if (record config pushed).current = [] then none
  else some (record config pushed).current

/-- What every stored segment and the one being accumulated hold, and that it is within the cap. -/
structure SizeCapped (config : HlsConfig) (stream : ChannelHls) (pushed : List Frame) :
    Prop where
  stored : ∀ segment ∈ stream.segments, ∃ run ∈ (record config pushed).finished,
    segment.data = (muxFrom config.begun run.1).2 ∧ WithinCap config run.1
  current : ∀ data ∈ stream.currentSegment, ∃ run ∈ currentRun config pushed,
    data = (muxFrom config.begun run).2 ∧ WithinCap config run

/-- A frame that is appended to a segment finds it no larger than the cap. -/
def AppendsBelowCap (config : HlsConfig) (rec : Recording) (frame : Frame) : Prop :=
  rec.current ≠ [] → ¬ rec.Cuts config frame →
    ((muxFrames rec.current).2.length : ℤ) ≤ config.sizeCap

instance (config : HlsConfig) (rec : Recording) (frame : Frame) :
    Decidable (AppendsBelowCap config rec frame) := inferInstanceAs (Decidable (_ → _ → _ ≤ _))

namespace Recording

/-- Every run is within the cap. -/
structure WithinCap (config : HlsConfig) (rec : Recording) : Prop where
  finished : ∀ run ∈ rec.finished, HlsService.WithinCap config run.1
  current : rec.current ≠ [] → HlsService.WithinCap config rec.current

/-- **One frame.** -/
theorem withinCap_push (hcap : 0 ≤ config.maxSegmentSizeKb) (h : rec.WithinCap config)
    (frame : Frame) :
    (rec.push config frame).WithinCap config ↔ AppendsBelowCap config rec frame := by
  rw [push]
  by_cases hfirst : rec.current = []
  · refine iff_of_true ?_ (fun hnext => absurd hfirst hnext)
    have hnotcuts : ¬ rec.Cuts config frame := fun hcuts => hcuts.2.1 hfirst
    rw [if_neg hnotcuts, hfirst, List.nil_append]
    split
    · exact h
    · exact ⟨h.finished, fun _ => withinCap_singleton hcap frame⟩
  · rw [if_neg fun hdropped => hfirst hdropped.1]
    split
    · rename_i hcuts
      refine iff_of_true ⟨fun run hrun => ?_, fun _ => withinCap_singleton hcap frame⟩
        (fun _ hnotcuts => absurd hcuts hnotcuts)
      rcases List.mem_append.mp hrun with hrun | hrun
      · exact h.finished run hrun
      · rw [List.mem_singleton.mp hrun]
        exact h.current hfirst
    · rename_i hnotcuts
      constructor
      · intro hnext _ _
        rw [← muxFrom_begun hcap]
        exact (withinCap_concat config rec.current frame).mp (hnext.current (by simp))
      · intro hbelow
        have hsize := hbelow hfirst hnotcuts
        rw [← muxFrom_begun hcap] at hsize
        exact ⟨h.finished, fun _ => (withinCap_concat config rec.current frame).mpr hsize⟩

end Recording

theorem mem_segments {segment : HlsSegment} (h : segment ∈ rec.segments config) :
    ∃ run ∈ rec.finished, segment.data = (muxFrames run.1).2 := by
  obtain ⟨run, hrun, rfl⟩ := List.mem_map.mp h
  exact ⟨run.1, List.fst_mem_of_mem_zipIdx hrun, rfl⟩

/-! ### The cap through a run -/

variable {pushed : List Frame}

theorem currentRun_of_record (hcap : 0 ≤ config.maxSegmentSizeKb)
    (hcurrent : (record config pushed).current ≠ []) :
    currentRun config pushed = some (record config pushed).current := by
  rw [currentRun, if_neg (not_lt.mpr hcap), if_neg hcurrent]

theorem sizeCapped_pushes (hcap : 0 ≤ config.maxSegmentSizeKb)
    (h : (record config pushed).WithinCap config) :
    SizeCapped config (pushes config pushed) pushed := by
  rw [pushes_eq hcap]
  refine ⟨fun segment hsegment => ?_, fun data hdata => ?_⟩
  · obtain ⟨run, hrun, hdata⟩ := mem_segments (mem_of_mem_dropOldest hsegment)
    exact ⟨run, hrun, by rw [muxFrom_begun hcap, hdata], h.finished run hrun⟩
  · obtain ⟨hnext, hdata⟩ := Option.ite_none_left_eq_some.mp hdata
    refine ⟨_, currentRun_of_record hcap hnext, ?_, h.current hnext⟩
    rw [muxFrom_begun hcap, Option.some.inj hdata]

theorem SizeCapped.withinCap (hcap : 0 ≤ config.maxSegmentSizeKb)
    (h : SizeCapped config (pushes config pushed) pushed)
    (hcurrent : (record config pushed).current ≠ []) :
    HlsService.WithinCap config (record config pushed).current := by
  rw [pushes_eq hcap] at h
  obtain ⟨run, hrun, -, hwithin⟩ := h.current _ (if_neg hcurrent)
  rw [currentRun_of_record hcap hcurrent] at hrun
  cases hrun
  exact hwithin

/-- A frame that was appended to what is within the cap afterwards was appended below it. -/
theorem SizeCapped.appendsBelowCap (hcap : 0 ≤ config.maxSegmentSizeKb)
    (h : SizeCapped config (pushes config (pushed ++ [frame])) (pushed ++ [frame])) :
    AppendsBelowCap config (record config pushed) frame := by
  intro hnext hnotcuts
  have hpush : record config (pushed ++ [frame]) =
      { record config pushed with current := (record config pushed).current ++ [frame] } := by
    rw [record_concat, Recording.push, if_neg (fun hdropped => hnext hdropped.1),
      if_neg hnotcuts]
  have hwithin := h.withinCap hcap (by simp [hpush])
  rw [hpush] at hwithin
  rw [← muxFrom_begun hcap]
  exact (withinCap_concat config _ frame).mp hwithin

/-- With a negative cap the segment that the first keyframe leaves is above it. -/
theorem not_sizeCapped (hneg : config.maxSegmentSizeKb < 0)
    (hkey : ∃ frame ∈ pushed, frame.isKeyframe = true) :
    ¬ SizeCapped config (pushes config pushed) pushed := by
  have hsome : pushed.dropWhile (!·.isKeyframe) ≠ [] := by
    simpa [List.dropWhile_eq_nil_iff] using hkey
  obtain ⟨first, run, hfirst⟩ := List.exists_cons_of_ne_nil hsome
  intro h
  rw [pushes_throws hneg hfirst] at h
  obtain ⟨run', -, -, hwithin⟩ := h.current _ rfl
  exact not_withinCap hneg run' hwithin

/-- **No segment is above the cap by more than an access unit** at any point of a run, whatever
calls throw, exactly if no frame is appended to a segment that is already above it, and the cap is
not negative or there is no keyframe. -/
theorem sizeCapped_iff (config : HlsConfig) (frames : List Frame) :
    (∀ pushed, pushed <+: frames → SizeCapped config (pushes config pushed) pushed) ↔
      (config.maxSegmentSizeKb < 0 → ∀ frame ∈ frames, frame.isKeyframe = false) ∧
        EveryStep (Recording.push config) (AppendsBelowCap config) {} frames := by
  constructor
  · intro h
    have hreserve : config.maxSegmentSizeKb < 0 → ∀ frame ∈ frames,
        frame.isKeyframe = false := by
      intro hneg
      by_contra hsome
      push Not at hsome
      exact not_sizeCapped hneg (by simpa using hsome) (h frames List.prefix_rfl)
    refine ⟨hreserve, everyStep_iff_split.mpr ?_⟩
    rintro pre frame post rfl (hnext : (record config pre).current ≠ [])
    -- with a negative cap nothing is recorded
    have hcap : 0 ≤ config.maxSegmentSizeKb := by
      by_contra hneg
      have hwaiting := fun f hf => hreserve (not_le.mp hneg) f (List.mem_append_left _ hf)
      exact hnext (by rw [record_waiting hwaiting])
    have hprefix : pre ++ [frame] <+: pre ++ frame :: post := ⟨post, by simp⟩
    exact (h _ hprefix).appendsBelowCap hcap hnext
  · rintro ⟨hreserve, hsteps⟩ pushed ⟨rest, rfl⟩
    by_cases hneg : config.maxSegmentSizeKb < 0
    · have hwaiting := fun f hf => hreserve hneg f (List.mem_append_left rest hf)
      rw [pushes_waiting hwaiting]
      exact ⟨fun _ hsegment => absurd hsegment List.not_mem_nil, fun _ hdata => by cases hdata⟩
    · have hcap := not_lt.mp hneg
      have hstart : Recording.WithinCap config {} :=
        ⟨fun _ hrun => absurd hrun List.not_mem_nil, fun hnext => absurd rfl hnext⟩
      have hstep : ∀ (rec : Recording) (frame : Frame), rec.WithinCap config →
          AppendsBelowCap config rec frame → (rec.push config frame).WithinCap config :=
        fun rec frame hrec => (Recording.withinCap_push hcap hrec frame).mpr
      exact sizeCapped_pushes hcap
        (along_of_everyStep hstep hstart (everyStep_append.mp hsteps).1).last

/-- A keyframe of one byte and six frames of one byte, all at one time. -/
def burst : List Frame := ⟨[0x65], 0, true⟩ :: List.replicate 6 ⟨[0x41], 0, false⟩

/-- With a cap of 1024 bytes they become a segment of 1692: the tables and 188 bytes a frame. -/
theorem sizeCapped_refuted : ¬ ∀ pushed, pushed <+: burst →
    SizeCapped { maxSegmentSizeKb := 1 } (pushes { maxSegmentSizeKb := 1 } pushed) pushed := by
  intro h
  have hcap : WithinCap { maxSegmentSizeKb := 1 } (record { maxSegmentSizeKb := 1 } burst).current :=
    (h burst List.prefix_rfl).withinCap (by decide) (by decide)
  exact absurd hcap (by rw [WithinCap]; decide +kernel)

end HlsService

end LoongNvr.Network
