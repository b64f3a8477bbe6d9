import LoongNvr.Network.HlsService
import LoongNvr.Support.Keyed
import LoongNvr.Support.Runs
import Mathlib.Data.List.Nodup
import Mathlib.Tactic.Linarith

/-!
# Network — HlsSegments

The playlist of a channel against its segments, and both against the frames pushed.

* `Complete`: the frames of all segments, in order, are the frames from the first keyframe on.
* `length_dropOldest`, `dropOldest_eq`: what the window keeps.
* `extinf_le_target_iff`: an entry's duration is at most the target unless the longest is too long
  for an `int`.
* `consistent_iff`: segments and playlist agree at every point of a run exactly if no segment is
  cut after 2^31 - 1 seconds or more.
-/

namespace LoongNvr.Network
open Support LoongNvr.Core

namespace HlsService

variable {config : HlsConfig}

/-! ### Every frame is in one segment -/

/-- What the recording of a channel is to the frames pushed. -/
structure Complete (config : HlsConfig) (pushed : List Frame) (rec : Recording) : Prop where
  frames : rec.finished.flatMap (·.1) ++ rec.current = pushed.dropWhile (!·.isKeyframe)
  waiting : rec.current = [] → rec.finished = []
  nonempty : ∀ run ∈ rec.finished, run.1 ≠ []
  keyframe : ∀ run ∈ rec.finished.map (·.1) ++ [rec.current], ∀ first ∈ run.head?,
    first.isKeyframe = true
  ends : rec.finished.map (·.2) = (rec.finished.map (·.1) ++ [rec.current]).tail.map startPts
  duration : ∀ run ∈ rec.finished, 0 ≤ startPts run.1 ∧
    config.segmentDurationMs * 1000 ≤ run.2 - startPts run.1

theorem startPts_append {run : List Frame} (h : run ≠ []) (frame : Frame) :
    startPts (run ++ [frame]) = startPts run := by
  obtain ⟨first, more, rfl⟩ := List.exists_cons_of_ne_nil h
  rfl

/-- A frame before the first keyframe belongs to no segment. -/
theorem Complete.drop {pushed : List Frame} {rec : Recording} (h : Complete config pushed rec)
    (hfirst : rec.current = []) {frame : Frame} (hkey : frame.isKeyframe = false) :
    Complete config (pushed ++ [frame]) rec where
  __ := h
  frames := by
    have hframes := h.frames
    rw [hfirst, h.waiting hfirst, List.flatMap_nil, List.append_nil] at hframes ⊢
    rw [List.dropWhile_append, ← hframes]
    simp [hkey]

/-- A frame that goes behind those of the current segment, or begins the first one. -/
theorem Complete.append {pushed : List Frame} {rec : Recording} (h : Complete config pushed rec)
    {frame : Frame} (hkey : rec.current = [] → frame.isKeyframe = true) :
    Complete config (pushed ++ [frame]) { rec with current := rec.current ++ [frame] } where
  frames := by
    dsimp only
    rw [← List.append_assoc, h.frames, List.dropWhile_append]
    split
    · rename_i hnone
      -- no keyframe so far, so nothing is in a segment
      have hnil := h.frames.trans (List.isEmpty_iff.mp hnone)
      have hfirst := (List.append_eq_nil_iff.mp hnil).2
      rw [List.isEmpty_iff.mp hnone]
      simp [hkey hfirst]
    · rfl
  waiting hnil := absurd hnil (by simp)
  nonempty := h.nonempty
  keyframe run hrun first hfirst := by
    rcases List.mem_append.mp hrun with hrun | hrun
    · exact h.keyframe run (List.mem_append_left _ hrun) first hfirst
    · obtain rfl := List.mem_singleton.mp hrun
      -- the first frame of the run is the new one only if there was none
      cases hcurrent : rec.current with
      | nil =>
          rw [hcurrent] at hfirst
          obtain rfl := Option.some.inj hfirst
          exact hkey hcurrent
      | cons head more =>
          rw [hcurrent] at hfirst
          refine h.keyframe rec.current (by simp) first ?_
          rw [hcurrent]
          exact hfirst
  ends := by
    have hends := h.ends
    cases hfinished : rec.finished with
    | nil => rfl
    | cons run more =>
        have hcurrent : rec.current ≠ [] := fun hnil => by
          rw [h.waiting hnil] at hfinished
          exact absurd hfinished (by simp)
        rw [hfinished] at hends
        simpa [startPts_append hcurrent] using hends
  duration := h.duration

/-- A keyframe that ends the current segment. -/
theorem Complete.cut {pushed : List Frame} {rec : Recording} (h : Complete config pushed rec)
    {frame : Frame} (hcuts : rec.Cuts config frame) :
    Complete config (pushed ++ [frame])
      { finished := rec.finished ++ [(rec.current, frame.pts)], current := [frame] } where
  frames := by
    -- a keyframe came before, so nothing more is dropped
    have hsome : rec.finished.flatMap (·.1) ++ rec.current ≠ [] := by
      simp [hcuts.2.1]
    rw [h.frames] at hsome
    rw [List.flatMap_append, List.dropWhile_append, if_neg (by simpa using hsome), ← h.frames]
    simp
  waiting hnil := absurd hnil (by simp)
  nonempty run hrun := by
    rcases List.mem_append.mp hrun with hrun | hrun
    · exact h.nonempty run hrun
    · rw [List.mem_singleton.mp hrun]
      exact hcuts.2.1
  keyframe run hrun first hfirst := by
    rw [List.map_append, List.mem_append] at hrun
    rcases hrun with hrun | hrun
    · exact h.keyframe run hrun first hfirst
    · rw [List.mem_singleton.mp hrun] at hfirst
      obtain rfl := Option.some.inj hfirst
      exact hcuts.1
  ends := by
    have hne : rec.finished.map (·.1) ++ [rec.current] ≠ [] := by simp
    have hruns : (rec.finished ++ [(rec.current, frame.pts)]).map (·.1) =
        rec.finished.map (·.1) ++ [rec.current] := List.map_append
    rw [hruns, List.tail_append_of_ne_nil hne, List.map_append, List.map_append, h.ends]
    rfl
  duration run hrun := by
    rcases List.mem_append.mp hrun with hrun | hrun
    · exact h.duration run hrun
    · rw [List.mem_singleton.mp hrun]
      exact ⟨hcuts.2.2.1, hcuts.2.2.2⟩

theorem complete_record (config : HlsConfig) (frames : List Frame) :
    Complete config frames (record config frames) := by
  induction frames using List.reverseRecOn with
  | nil => exact ⟨rfl, fun _ => rfl, by simp [record], by simp [record], rfl, by simp [record]⟩
  | append_singleton frames frame ih =>
      rw [record_concat, Recording.push]
      split
      · rename_i hdropped
        exact ih.drop hdropped.1 (by simpa using hdropped.2)
      · rename_i htaken
        split
        · rename_i hcuts
          exact ih.cut hcuts
        · refine ih.append fun hfirst => ?_
          by_contra hkey
          exact htaken ⟨hfirst, by simpa using hkey⟩

/-! ### The window -/

theorem length_dropOldest {maxSegments : ℤ} (hmax : 0 ≤ maxSegments)
    (segments : List HlsSegment) :
    ((dropOldest maxSegments segments).length : ℤ) ≤ maxSegments := by
  induction segments with
  | nil => simpa [dropOldest] using hmax
  | cons segment segments ih =>
      rw [dropOldest]
      split
      · exact ih
      · rename_i hfits
        by_contra hlong
        exact hfits ⟨hmax, not_le.mp hlong⟩

/-- The window is the last segments, as many as it may have. -/
theorem dropOldest_eq {maxSegments : ℤ} (hmax : 0 ≤ maxSegments) (segments : List HlsSegment) :
    dropOldest maxSegments segments = segments.drop (segments.length - maxSegments.toNat) := by
  induction segments with
  | nil => exact List.drop_nil.symm
  | cons segment segments ih =>
      rw [dropOldest]
      split
      · rename_i hfull
        have hmore : (segment :: segments).length - maxSegments.toNat =
            segments.length - maxSegments.toNat + 1 := by
          simp only [List.length_cons] at hfull ⊢
          omega
        rw [ih, hmore, List.drop_succ_cons]
      · rename_i hfits
        have hnone : (segment :: segments).length - maxSegments.toNat = 0 := by
          by_contra hsome
          exact hfits ⟨hmax, by omega⟩
        rw [hnone, List.drop_zero]

namespace Recording

theorem sequence_segments (rec : Recording) :
    (rec.segments config).map (·.sequence) = List.range' 0 rec.finished.length := by
  rw [segments, List.map_map]
  exact (List.zipIdx_map_snd 0 rec.finished)

/-- The stored segments are numbered one after the other. -/
theorem sequence_stored (hmax : 0 ≤ config.maxSegments) (rec : Recording) :
    ∃ first, (rec.stream config).segments.map (·.sequence) =
      List.range' first (rec.stream config).segments.length := by
  have hlen : (rec.segments config).length = rec.finished.length := by
    simp [segments]
  have hstored : (rec.stream config).segments =
      (rec.segments config).drop (rec.finished.length - config.maxSegments.toNat) := by
    rw [← hlen]
    exact dropOldest_eq hmax _
  refine ⟨rec.finished.length - config.maxSegments.toNat, ?_⟩
  rw [hstored, List.map_drop, sequence_segments, List.drop_range', List.length_drop, hlen]
  simp

end Recording

/-- A stored segment is found by its number. -/
theorem getSegment_of_mem {stream : ChannelHls}
    (hnodup : (stream.segments.map (·.sequence)).Nodup) {segment : HlsSegment}
    (h : segment ∈ stream.segments) :
    stream.getSegment segment.sequence = some segment.data := by
  have hfind : stream.segments.find? (·.sequence = segment.sequence) = some segment :=
    (find?_key_eq_some_iff hnodup).mpr ⟨h, rfl⟩
  rw [ChannelHls.getSegment, hfind]
  rfl

/-! ### The target duration -/

/-- `max_duration` in `GeneratePlaylist`. -/
def longest (segments : List HlsSegment) : ℚ :=
  segments.foldl (fun longest segment => max longest segment.durationSec) 0

theorem longest_concat (segments : List HlsSegment) (segment : HlsSegment) :
    longest (segments ++ [segment]) = max (longest segments) segment.durationSec := by
  rw [longest, List.foldl_append]
  rfl

theorem le_longest {segments : List HlsSegment} :
    0 ≤ longest segments ∧
      ∀ segment ∈ segments, segment.durationSec ≤ longest segments := by
  induction segments using List.reverseRecOn with
  | nil => exact ⟨le_rfl, by simp⟩
  | append_singleton segments segment ih =>
      rw [longest_concat]
      refine ⟨ih.1.trans (le_max_left _ _), fun other hother => ?_⟩
      rcases List.mem_append.mp hother with hother | hother
      · exact (ih.2 other hother).trans (le_max_left _ _)
      · rw [List.mem_singleton.mp hother]
        exact le_max_right _ _

theorem longest_eq (segments : List HlsSegment) :
    longest segments = 0 ∨ ∃ segment ∈ segments, longest segments = segment.durationSec := by
  induction segments using List.reverseRecOn with
  | nil => exact .inl rfl
  | append_singleton segments segment ih =>
      rw [longest_concat]
      rcases max_choice (longest segments) segment.durationSec with hmax | hmax <;> rw [hmax]
      · refine ih.imp id fun ⟨other, hother, heq⟩ => ⟨other, ?_, heq⟩
        exact List.mem_append_left _ hother
      · exact .inr ⟨segment, by simp, rfl⟩

/-- The range of an `int` in whole seconds. -/
theorem le_floor_longest {segments : List HlsSegment} :
    2147483647 ≤ ⌊longest segments⌋ ↔ 2 ^ 31 - 1 ≤ longest segments := by
  rw [Int.le_floor]
  norm_num

/-- A target in range is more than the longest duration. -/
theorem targetDuration_eq {segments : List HlsSegment} (h : longest segments < 2 ^ 31 - 1) :
    targetDuration segments = ⌊longest segments⌋ + 1 := by
  have hlow : 0 ≤ ⌊longest segments⌋ := Int.floor_nonneg.mpr le_longest.1
  have hhigh : ⌊longest segments⌋ < 2147483647 :=
    not_le.mp fun hle => absurd h (not_lt.mpr (le_floor_longest.mp hle))
  rw [targetDuration, ← longest]
  simp only [toInt32, Int.bmod]
  omega

/-- A target out of range is less. -/
theorem targetDuration_lt {segments : List HlsSegment} (h : 2 ^ 31 - 1 ≤ longest segments) :
    targetDuration segments < ⌊longest segments⌋ := by
  have hhigh := le_floor_longest.mpr h
  rw [targetDuration, ← longest]
  simp only [toInt32, Int.bmod]
  omega

theorem Rounding.floor_le (rounding : Rounding) (x : ℚ) :
    ⌊x⌋ * 1000 ≤ rounding.toThousandths x := by
  have hnear := (abs_le.mp (rounding.nearest x)).2
  have hfloor := Int.floor_le x
  have hlt : ((⌊x⌋ * 1000 : ℤ) : ℚ) < (rounding.toThousandths x + 1 : ℤ) := by
    push_cast
    linarith
  exact Int.lt_add_one_iff.mp (Int.cast_lt.mp hlt)

theorem Rounding.le_floor_add_one (rounding : Rounding) (x : ℚ) :
    rounding.toThousandths x ≤ (⌊x⌋ + 1) * 1000 := by
  have hnear := (abs_le.mp (rounding.nearest x)).1
  have hfloor := Int.lt_floor_add_one x
  have hlt : (rounding.toThousandths x : ℚ) < (((⌊x⌋ + 1) * 1000 + 1 : ℤ) : ℚ) := by
    push_cast
    linarith
  exact Int.lt_add_one_iff.mp (Int.cast_lt.mp hlt)

/-- **No entry is longer than the target exactly if no segment is too long for an `int`.** -/
theorem extinf_le_target_iff (rounding : Rounding) {segments : List HlsSegment} :
    (∀ segment ∈ segments,
      rounding.toThousandths segment.durationSec ≤ targetDuration segments * 1000) ↔
    ∀ segment ∈ segments, segment.durationSec < 2 ^ 31 - 1 := by
  constructor
  · intro htarget segment hsegment
    by_contra hlong
    have hlongest := (not_lt.mp hlong).trans (le_longest.2 segment hsegment)
    rcases longest_eq segments with hzero | ⟨other, hother, heq⟩
    · rw [hzero] at hlongest
      norm_num at hlongest
    · have hlt := targetDuration_lt hlongest
      have hfloor := rounding.floor_le other.durationSec
      have hle := htarget other hother
      rw [heq] at hlt
      omega
  · intro hshort segment hsegment
    have hlongest : longest segments < 2 ^ 31 - 1 := by
      rcases longest_eq segments with hzero | ⟨other, hother, heq⟩
      · rw [hzero]
        norm_num
      · rw [heq]
        exact hshort other hother
    have hfloor := Int.floor_mono (le_longest.2 segment hsegment)
    have hle := rounding.le_floor_add_one segment.durationSec
    rw [targetDuration_eq hlongest]
    omega

/-! ### Segments, playlist and frames -/

/-- The segment of a finished run, its duration being the time from its first frame to the first
of the next. -/
def runSegment (run : (List Frame × ℤ) × ℕ) : HlsSegment where
  sequence := run.2
  durationSec := ((run.1.2 - startPts run.1.1 : ℤ) : ℚ) / 1000000
  data := (muxFrames run.1.1).2

/-- The segments of a channel, its playlist, and the frames pushed into it. -/
structure Consistent (rounding : Rounding) (config : HlsConfig) (pushed : List Frame)
    (stream : ChannelHls) (rec : Recording) : Prop where
  complete : Complete config pushed rec
  segments : stream.segments =
    (rec.finished.zipIdx.map runSegment).drop (rec.finished.length - config.maxSegments.toNat)
  current : stream.currentSegment =
    if rec.current = [] then none else some (muxFrames rec.current).2
  numbered : ∃ first, stream.segments.map (·.sequence) = List.range' first stream.segments.length
  window : (stream.segments.length : ℤ) ≤ config.maxSegments
  found : ∀ segment ∈ stream.segments, stream.getSegment segment.sequence = some segment.data
  playlist : ∀ playlist ∈ stream.playlist rounding,
    playlist.entries.map (·.2) = stream.segments.map (·.sequence) ∧
      playlist.entries.head?.map (·.2) = some playlist.mediaSequence ∧
      ∀ entry ∈ playlist.entries, entry.1 ≤ playlist.targetDuration * 1000

/-- A segment that a frame ends lasts less than 2^31 - 1 seconds. -/
def CutInTime (config : HlsConfig) (rec : Recording) (frame : Frame) : Prop :=
  rec.Cuts config frame → frame.pts - startPts rec.current < (2 ^ 31 - 1) * 1000000

instance (config : HlsConfig) (rec : Recording) (frame : Frame) :
    Decidable (CutInTime config rec frame) := inferInstanceAs (Decidable (_ → _))

/-- Longer than its target, a segment has the duration of its frames. -/
theorem segmentOf_eq (hduration : 1 ≤ config.segmentDurationMs) {run : List Frame × ℤ}
    (h : 0 ≤ startPts run.1 ∧ config.segmentDurationMs * 1000 ≤ run.2 - startPts run.1) (i : ℕ) :
    segmentOf config run i = runSegment (run, i) := by
  have hlater : startPts run.1 ≥ 0 ∧ run.2 > startPts run.1 := ⟨h.1, by omega⟩
  rw [segmentOf, runSegment, if_pos hlater]

theorem Complete.segments_eq (hduration : 1 ≤ config.segmentDurationMs) {pushed : List Frame}
    {rec : Recording} (h : Complete config pushed rec) :
    rec.segments config = rec.finished.zipIdx.map runSegment := by
  refine List.map_congr_left fun run hrun => ?_
  exact segmentOf_eq hduration (h.duration run.1 (List.fst_mem_of_mem_zipIdx hrun)) run.2

/-- A new segment is in the window. -/
theorem mem_dropOldest_concat (hmax : 1 ≤ config.maxSegments) (segments : List HlsSegment)
    (segment : HlsSegment) : segment ∈ dropOldest config.maxSegments (segments ++ [segment]) := by
  rw [dropOldest_eq (by omega), List.drop_append_of_le_length (by simp; omega)]
  exact List.mem_append_right _ (by simp)

/-- In a run of cuts in time every segment is in time. -/
theorem short_of_everyStep {frames : List Frame}
    (h : EveryStep (Recording.push config) (CutInTime config) {} frames) :
    ∀ run ∈ (record config frames).finished,
      run.2 - startPts run.1 < (2 ^ 31 - 1) * 1000000 := by
  induction frames using List.reverseRecOn with
  | nil => exact fun run hrun => absurd hrun (by simp [record])
  | append_singleton frames frame ih =>
      obtain ⟨hframes, hframe⟩ := everyStep_concat.mp h
      rw [record_concat, Recording.push]
      split
      · exact ih hframes
      · split
        · rename_i hcuts
          intro run hrun
          rcases List.mem_append.mp hrun with hrun | hrun
          · exact ih hframes run hrun
          · rw [List.mem_singleton.mp hrun]
            exact hframe hcuts
        · exact ih hframes

theorem pushAll_eq_of_reserve {frames : List Frame}
    (hreserve : config.maxSegmentSizeKb < 0 → ∀ frame ∈ frames, frame.isKeyframe = false) :
    pushAll config frames = .ok ((record config frames).stream config) := by
  by_cases hneg : config.maxSegmentSizeKb < 0
  · rw [pushAll_waiting (hreserve hneg), record_waiting (hreserve hneg)]
    rfl
  · exact pushAll_eq (not_lt.mp hneg) frames

/-- Segments and playlist agree when all stored segments are in time. -/
theorem consistent_stream (rounding : Rounding) (hmax : 1 ≤ config.maxSegments)
    (hduration : 1 ≤ config.segmentDurationMs) {pushed : List Frame} {rec : Recording}
    (hcomplete : Complete config pushed rec)
    (hshort : ∀ run ∈ rec.finished, run.2 - startPts run.1 < (2 ^ 31 - 1) * 1000000) :
    Consistent rounding config pushed (rec.stream config) rec := by
  have hsegments : (rec.stream config).segments =
      dropOldest config.maxSegments (rec.finished.zipIdx.map runSegment) := by
    rw [← hcomplete.segments_eq hduration]
    rfl
  have hmax' : 0 ≤ config.maxSegments := by omega
  have hnumbered := rec.sequence_stored hmax'
  have hfound : ∀ segment ∈ (rec.stream config).segments,
      (rec.stream config).getSegment segment.sequence = some segment.data := by
    obtain ⟨first, hrange⟩ := hnumbered
    exact fun segment => getSegment_of_mem (hrange ▸ List.nodup_range')
  have hintime : ∀ segment ∈ (rec.stream config).segments, segment.durationSec < 2 ^ 31 - 1 := by
    intro segment hsegment
    rw [hsegments] at hsegment
    obtain ⟨run, hrun, rfl⟩ := List.mem_map.mp (mem_of_mem_dropOldest hsegment)
    have hlt := hshort run.1 (List.fst_mem_of_mem_zipIdx hrun)
    -- compared in seconds there, in microseconds here
    have hcast : ((run.1.2 - startPts run.1.1 : ℤ) : ℚ) < (2 ^ 31 - 1) * 1000000 := by
      exact_mod_cast hlt
    rw [runSegment, div_lt_iff₀ (by norm_num)]
    exact hcast
  refine ⟨hcomplete, ?_, rfl, hnumbered, length_dropOldest (by omega) _, hfound, ?_⟩
  · rw [hsegments, dropOldest_eq (by omega), List.length_map, List.length_zipIdx]
  · intro playlist hplaylist
    obtain ⟨front, hfront, rfl⟩ := Option.map_eq_some_iff.mp hplaylist
    refine ⟨by simp [Function.comp_def], by simp [hfront], ?_⟩
    intro entry hentry
    obtain ⟨segment, hsegment, rfl⟩ := List.mem_map.mp hentry
    exact (extinf_le_target_iff rounding).mpr hintime segment hsegment

theorem Consistent.short {rounding : Rounding} {pushed : List Frame} {stream : ChannelHls}
    {rec : Recording} (h : Consistent rounding config pushed stream rec) :
    ∀ segment ∈ stream.segments, segment.durationSec < 2 ^ 31 - 1 := by
  refine (extinf_le_target_iff rounding).mp fun segment hsegment => ?_
  obtain ⟨front, more, hsegments⟩ := List.exists_cons_of_ne_nil (List.ne_nil_of_mem hsegment)
  have hfront : stream.segments.head? = some front := by rw [hsegments, List.head?_cons]
  exact (h.playlist _ (by rw [ChannelHls.playlist, hfront]; rfl)).2.2 _
    (List.mem_map_of_mem hsegment)

/-- After a cut that is not in time the playlist is wrong. -/
theorem cutInTime_of_consistent {rounding : Rounding} (hmax : 1 ≤ config.maxSegments)
    (hduration : 1 ≤ config.segmentDurationMs) {frames : List Frame} {frame : Frame}
    {rec : Recording} (h : Consistent rounding config (frames ++ [frame])
      ((record config (frames ++ [frame])).stream config) rec) :
    CutInTime config (record config frames) frame := by
  intro hcuts
  have hpush : record config (frames ++ [frame]) =
      ⟨(record config frames).finished ++ [((record config frames).current, frame.pts)],
        [frame]⟩ := by
    rw [record_concat, Recording.push, if_neg (fun hfirst => hcuts.2.1 hfirst.1), if_pos hcuts]
  rw [hpush] at h
  have hstored := h.short (segmentOf config ((record config frames).current, frame.pts)
      (record config frames).finished.length) <| by
    show _ ∈ dropOldest config.maxSegments _
    rw [Recording.segments_concat]
    exact mem_dropOldest_concat hmax _ _
  rw [segmentOf_eq hduration hcuts.2.2, runSegment, div_lt_iff₀ (by norm_num)] at hstored
  exact_mod_cast hstored

/-- **Segments and playlist are consistent at every point of a run** exactly if the size cap is not
negative, or there is no keyframe, and no frame ends a segment that lasted 2^31 - 1 seconds or
more. -/
theorem consistent_iff (rounding : Rounding) (config : HlsConfig) (hmax : 1 ≤ config.maxSegments)
    (hduration : 1 ≤ config.segmentDurationMs) (frames : List Frame) :
    (∀ pushed, pushed <+: frames → ∃ stream, pushAll config pushed = .ok stream ∧
      ∃ rec, Consistent rounding config pushed stream rec) ↔
    (config.maxSegmentSizeKb < 0 → ∀ frame ∈ frames, frame.isKeyframe = false) ∧
      EveryStep (Recording.push config) (CutInTime config) {} frames := by
  constructor
  · intro h
    have hreserve : config.maxSegmentSizeKb < 0 → ∀ frame ∈ frames,
        frame.isKeyframe = false := by
      intro hneg
      by_contra hsome
      push Not at hsome
      obtain ⟨stream, hok, -⟩ := h frames List.prefix_rfl
      rw [pushAll_throws hneg (by simpa using hsome)] at hok
      exact absurd hok (by simp)
    refine ⟨hreserve, everyStep_iff_split.mpr fun pre frame post hsplit hcuts => ?_⟩
    -- a negative cap throws at the first keyframe
    have hnonneg : 0 ≤ config.maxSegmentSizeKb := by
      by_contra hneg
      have hnone := hreserve (not_le.mp hneg) frame (by simp [hsplit])
      exact absurd hcuts.1 (by simp [hnone])
    have hprefix : pre ++ [frame] <+: frames := ⟨post, by simp [hsplit]⟩
    obtain ⟨stream, hok, rec, hconsistent⟩ := h _ hprefix
    obtain rfl := Except.ok.inj ((pushAll_eq hnonneg _).symm.trans hok)
    exact cutInTime_of_consistent hmax hduration hconsistent hcuts
  · rintro ⟨hreserve, hintime⟩ pushed ⟨rest, rfl⟩
    have hpushed := fun hneg frame hframe => hreserve hneg frame (List.mem_append_left rest hframe)
    exact ⟨_, pushAll_eq_of_reserve hpushed, _, consistent_stream rounding hmax hduration
      (complete_record config pushed) (short_of_everyStep (everyStep_append.mp hintime).1)⟩

/-- A half goes up. -/
def Rounding.halfUp : Rounding where
  toThousandths x := ⌊x * 1000 + 1 / 2⌋
  nearest x := by
    have hlow := Int.floor_le (x * 1000 + 1 / 2)
    have hhigh := Int.lt_floor_add_one (x * 1000 + 1 / 2)
    rw [abs_le]
    constructor <;> linarith

/-- A keyframe of one byte. -/
def keyframeAt (pts : ℤ) : Frame := ⟨[0x65], pts, true⟩

theorem consistent_regular : ∃ stream,
    pushAll {} [keyframeAt 0, keyframeAt 2000000] = .ok stream ∧
      ∃ rec, Consistent .halfUp {} [keyframeAt 0, keyframeAt 2000000] stream rec :=
  (consistent_iff .halfUp {} (by decide) (by decide) _).mpr ⟨by decide, by decide⟩ _
    List.prefix_rfl

/-- Two keyframes 2^31 - 1 seconds apart: the target of the playlist is not positive. -/
theorem consistent_refuted : ¬ ∀ pushed,
    pushed <+: [keyframeAt 0, keyframeAt 2147483647000000] →
    ∃ stream, pushAll {} pushed = .ok stream ∧
      ∃ rec, Consistent .halfUp {} pushed stream rec := by
  intro h
  obtain ⟨stream, hok, rec, hconsistent⟩ := h _ List.prefix_rfl
  obtain rfl := Except.ok.inj ((pushAll_eq (by decide) _).symm.trans hok)
  have hintime : CutInTime {} (record {} [keyframeAt 0]) (keyframeAt 2147483647000000) :=
    cutInTime_of_consistent (by decide) (by decide) hconsistent
  exact absurd hintime (by decide)

end HlsService

end LoongNvr.Network
