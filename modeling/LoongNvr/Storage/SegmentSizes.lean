import LoongNvr.Storage.SegmentCalls
import LoongNvr.Support.Runs

/-!
# Storage — SegmentSizes

Whether a recorded segment's size is its own.  `FinalizeSegment` stores what the writer has written
in all, the frames of earlier segments and the frame that rotates included.

* `step_spec`: a call keeps the sizes right exactly if it finalises no segment whose recording has
  written bytes elsewhere.
* `sizesRight_iff`: the sizes are right through a run exactly when its calls are such.
-/

namespace LoongNvr.Storage
open Support LoongNvr.Core
open LoongNvr.Rules (cStr)

variable {segmentPath : ℕ → String}

namespace Recorder

variable {s : Recorder}

/-! ### Runs -/

/-- A recorder that has recorded nothing, with or without an indexer. -/
def start (indexed : Bool) : Recorder where
  indexer := if indexed then some [] else none

theorem kept_start (segmentPath : ℕ → String) (indexed : Bool) :
    Kept segmentPath (start indexed) := by
  have hrows : (start indexed).segments.rows = [] := by cases indexed <;> rfl
  have hfiles : (start indexed).files = [] := by rw [files, hrows, List.map_nil]
  refine ⟨?_, ?_, ?_, ?_, ?_, ?_⟩
  · intro op hop
    cases indexed <;> exact absurd hop List.not_mem_nil
  · simp [hfiles]
  · simp [hfiles]
  · simp [hfiles]
  · exact fun frame hframe => absurd hframe List.not_mem_nil
  · exact fun channelId cr hlookup => absurd hlookup (by simp [start])

/-- **One call.** -/
theorem step_spec (hpaths : Function.Injective fun n => cStr (segmentPath n))
    (hnonempty : ∀ n, segmentPath n ≠ "") (hs : Kept segmentPath s) (h : s.SegmentsRight)
    (op : RecorderOp) :
    Kept segmentPath (s.step segmentPath op) ∧
      ((s.step segmentPath op).SegmentsRight ↔ s.Owns op) := by
  cases op with
  | startRecording channelId config now =>
      exact ⟨hs.startRecording channelId config now,
        iff_of_true (right_startRecording hs h channelId config now) trivial⟩
  | writeFrame channelId size pts isKeyframe now =>
      exact step_writeFrame hs h hpaths hnonempty channelId size pts isKeyframe now
  | stopRecording channelId now =>
      exact ⟨hs.stopRecording channelId now, right_stopRecording hs h channelId now⟩
  | stopAll now => exact ⟨hs.stopAll now, right_stopAll hs h now⟩
  | flush => exact ⟨hs.flush, iff_of_true (right_flush h) trivial⟩

/-- **A recorded segment's size is its own** in a run, and the total of a channel what was recorded
for it, exactly when no call finalises a segment whose recording has frames with bytes in earlier
segments, and every frame that rotates is empty. -/
theorem sizesRight_iff (segmentPath : ℕ → String)
    (hpaths : Function.Injective fun n => cStr (segmentPath n))
    (hnonempty : ∀ n, segmentPath n ≠ "") (indexed : Bool) (ops : List RecorderOp) :
    Along (step segmentPath) SizesRight (start indexed) ops ↔
      EveryStep (step segmentPath) Owns (start indexed) ops := by
  have hspec : ∀ s op, SegmentsRight s ∧ Kept segmentPath s →
      ((SegmentsRight (step segmentPath s op) ∧ Kept segmentPath (step segmentPath s op)) ↔
        Owns s op) := by
    rintro s op ⟨h, hs⟩
    obtain ⟨hkept, hright⟩ := step_spec hpaths hnonempty hs h op
    rw [hright, and_iff_left hkept]
  have hstart : SegmentsRight (start indexed) ∧ Kept segmentPath (start indexed) := by
    refine ⟨fun row hrow => absurd hrow ?_, kept_start segmentPath indexed⟩
    cases indexed <;> exact List.not_mem_nil
  rw [← along_iff_everyStep hspec hstart]
  constructor
  · intro h
    exact (h.mono fun _ hs => hs.segment).strengthen
      (fun s op h hs => (step_spec hpaths hnonempty hs h op).1) hstart.2
  · exact fun h => h.mono fun _ hs => hs.2.sizesRight hs.1

/-! ### A rotation -/

/-- Paths told apart by their number of zeros. -/
def zerosPath (n : ℕ) : String := String.ofList ('/' :: List.replicate n '0')

theorem cStr_zerosPath (n : ℕ) : cStr (zerosPath n) = zerosPath n := by
  have hall : ∀ c ∈ '/' :: List.replicate n '0', decide (c ≠ '\x00') = true := by
    intro c hc
    rcases List.mem_cons.mp hc with rfl | hc
    · decide
    · rw [List.eq_of_mem_replicate hc]
      decide
  rw [cStr, zerosPath, String.toList_ofList, List.takeWhile_eq_self_iff.mpr hall]

theorem zerosPath_injective : Function.Injective fun n => cStr (zerosPath n) := by
  intro m n h
  have h : cStr (zerosPath m) = cStr (zerosPath n) := h
  rw [cStr_zerosPath, cStr_zerosPath] at h
  have hlength := congrArg (fun p => p.toList.length) h
  simpa [zerosPath] using hlength

theorem zerosPath_ne_empty (n : ℕ) : zerosPath n ≠ "" := by
  intro h
  have htext := congrArg String.toList h
  rw [zerosPath, String.toList_ofList] at htext
  exact absurd htext (List.cons_ne_nil _ _)

/-- Two keyframes half an hour apart. -/
def rotation : List RecorderOp :=
  [.startRecording 1 {} 0, .writeFrame 1 100 0 true 0, .writeFrame 1 100 1800000000 true 1800000,
    .stopRecording 1 1800040]

/-- Two segments of 100 bytes each are stored with 200 bytes each. -/
theorem sizesRight_refuted : ¬ Along (step zerosPath) SizesRight (start false) rotation := by
  intro h
  have htotal := h.last.total 1 (by decide +kernel)
  exact absurd htotal (by decide +kernel)

/-- A recording of one segment. -/
theorem sizesRight_unrotated : Along (step zerosPath) SizesRight (start true)
    [.startRecording 1 {} 0, .writeFrame 1 100 0 true 0, .writeFrame 1 50 40000 false 40,
      .stopRecording 1 80, .flush] :=
  (sizesRight_iff zerosPath zerosPath_injective zerosPath_ne_empty true _).mpr (by decide +kernel)

end Recorder

end LoongNvr.Storage
