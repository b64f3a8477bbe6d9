import LoongNvr.Storage.Recorder
import LoongNvr.Support.Groups
import Mathlib.Algebra.Order.BigOperators.Group.List
import Mathlib.Data.List.TakeWhile

/-!
# Storage — SegmentFiles

How the rows of the index, the files on the disk and the recorders belong together.

* `writeFrame_cases`: what the writer does with a frame.
* `Kept`: the invariant of every run.
* `SizesRight`: finalised segments have the size of their file, and channels the size of what was
  recorded for them.
* `Owns`: a call finalises a segment only if its recording has written nothing but empty frames
  elsewhere.
* `Accounted.ownsBytes_iff`: then and only then the writer has counted what is in the file.
* `Kept.sizesRight`: right segments make right channels.
* `Kept.updateSegment`, `right_updateSegment`: a row that gets its end and its size.
-/

namespace LoongNvr.Storage
open Support LoongNvr.Core
open LoongNvr.Rules (cStr)

variable {segmentPath : ℕ → String}

/-! ### The writer -/

namespace RecordWriter

/-- **What the writer does with a frame**: it waits for a keyframe, writes to the open segment, or
opens a new segment, the `n`-th, and writes to that. -/
theorem writeFrame_cases (size : ℕ) (pts : ℤ) (isKeyframe : Bool) (w : RecordWriter)
    (disk : Disk) :
    (w.isOpen = false ∧ w.writeFrame segmentPath size pts isKeyframe disk = (w, disk)) ∨
    (w.isOpen = true ∧ w.full pts isKeyframe = false ∧
      w.writeFrame segmentPath size pts isKeyframe disk = w.writePacket size disk) ∨
    ((w.isOpen = true → w.full pts isKeyframe = true) ∧ ∃ n ≥ disk.opened,
      w.writeFrame segmentPath size pts isKeyframe disk =
        writePacket size
          { w with
            currentSegmentPath := segmentPath n
            isOpen := true
            segmentStartPts := pts }
          { disk with opened := n + 1 }) := by
  rw [writeFrame]
  cases hopen : w.isOpen with
  | false =>
      cases isKeyframe with
      | false => exact .inl ⟨rfl, rfl⟩
      | true =>
          refine .inr (.inr ⟨fun h => absurd h Bool.false_ne_true, ?_⟩)
          simp only [prepare, hopen, Bool.false_eq_true, Bool.not_false, Bool.not_true,
            Bool.and_false, if_false, openSegment]
          -- what was just opened may be full at once, and then the next one is opened
          split
          · exact ⟨disk.opened + 1, Nat.le_succ _, by simp only [closeSegment]⟩
          · exact ⟨disk.opened, le_rfl, rfl⟩
  | true =>
      cases hfull : w.full pts isKeyframe with
      | false =>
          refine .inr (.inl ⟨rfl, rfl, ?_⟩)
          simp [prepare, hopen, hfull]
      | true =>
          refine .inr (.inr ⟨fun _ => rfl, disk.opened, le_rfl, ?_⟩)
          simp [prepare, hopen, hfull, closeSegment, openSegment]

end RecordWriter

/-! ### The files -/

namespace Disk

variable (disk : Disk)

theorem fileBytes_append (n : ℕ) (frame : WrittenFrame) (path : String) :
    fileBytes { disk with opened := n, frames := disk.frames ++ [frame] } path =
      disk.fileBytes path + if frame.path = path then (frame.size : ℤ) else 0 := by
  simp only [fileBytes, List.filter_append, List.map_append, List.sum_append]
  split <;> simp [*]

theorem fileBytes_eq_zero {path : String} (h : ∀ frame ∈ disk.frames, frame.path ≠ path) :
    disk.fileBytes path = 0 := by
  have hnone : disk.frames.filter (fun frame => frame.path = path) = [] :=
    List.filter_eq_nil_iff.mpr fun frame hframe => by simpa using h frame hframe
  rw [fileBytes, hnone]
  rfl

end Disk

/-! ### The frames of a recording -/

namespace RecordWriter

/-- The frames of the recording that are not in the file of its open segment. -/
def elsewhere (w : RecordWriter) : List WrittenFrame :=
  w.written.filter fun frame => frame.path ≠ cStr w.currentSegmentPath

/-- The frames of the recording that are in other files than that of its open segment are empty. -/
def NoneElsewhere (w : RecordWriter) : Prop := ∀ frame ∈ w.elsewhere, frame.size = 0

instance (w : RecordWriter) : Decidable w.NoneElsewhere :=
  inferInstanceAs (Decidable (∀ frame ∈ w.elsewhere, _))

/-- The writer has counted the frames of its recording, and they are on the disk. -/
structure Counted (disk : Disk) (w : RecordWriter) : Prop where
  total : w.totalBytesWritten = (w.written.map fun frame => (frame.size : ℤ)).sum
  onDisk : ∀ frame ∈ w.written, frame ∈ disk.frames

/-- Besides, the file of the open segment holds frames of the recording and no others. -/
structure Accounted (disk : Disk) (w : RecordWriter) : Prop extends Counted disk w where
  file : disk.fileBytes (cStr w.currentSegmentPath) =
    Disk.fileBytes { frames := w.written } (cStr w.currentSegmentPath)

/-- All the bytes the writer has counted are in its segment's file. -/
def OwnsBytes (disk : Disk) (w : RecordWriter) : Prop :=
  w.totalBytesWritten = disk.fileBytes (cStr w.currentSegmentPath)

variable {disk disk' : Disk} {w : RecordWriter}

theorem Counted.mono (h : Counted disk w) (hframes : ∀ frame ∈ disk.frames, frame ∈ disk'.frames) :
    Counted disk' w :=
  ⟨h.total, fun frame hframe => hframes frame (h.onDisk frame hframe)⟩

/-- A writer whose segment's file has nothing in it yet. -/
theorem Counted.accounted (h : Counted disk w)
    (hnew : ∀ frame ∈ disk.frames, frame.path ≠ cStr w.currentSegmentPath) : Accounted disk w := by
  have hwritten : Disk.fileBytes { frames := w.written } (cStr w.currentSegmentPath) = 0 :=
    Disk.fileBytes_eq_zero _ fun frame hframe => hnew frame (h.onDisk frame hframe)
  exact ⟨h, by rw [hwritten, disk.fileBytes_eq_zero hnew]⟩

/-- A frame for the open segment is counted. -/
theorem Accounted.writePacket (h : Accounted disk w) (size : ℕ) :
    (w.writePacket size disk).1.Accounted (w.writePacket size disk).2 where
  total := by simp [RecordWriter.writePacket, h.total]
  onDisk frame hframe := by
    rcases List.mem_append.mp hframe with hold | hnew
    · exact List.mem_append_left _ (h.onDisk frame hold)
    · exact List.mem_append_right _ hnew
  file := by
    have hwritten := Disk.fileBytes_append { frames := w.written } 0
      { path := cStr w.currentSegmentPath, channelId := w.channelId, size := size }
      (cStr w.currentSegmentPath)
    simp only [RecordWriter.writePacket, Disk.fileBytes_append, hwritten, h.file]

/-- **What the writer has counted** is what is in its segment's file and what is elsewhere. -/
theorem Accounted.total_eq (h : Accounted disk w) :
    w.totalBytesWritten = disk.fileBytes (cStr w.currentSegmentPath) +
      (w.elsewhere.map fun frame => (frame.size : ℤ)).sum := by
  have hsplit := List.sum_map_filter_add_sum_map_filter_not
    (fun frame : WrittenFrame => frame.path = cStr w.currentSegmentPath)
    (fun frame : WrittenFrame => (frame.size : ℤ)) w.written
  rw [h.total, h.file, ← hsplit]
  rfl

theorem sizes_nonneg (frames : List WrittenFrame) :
    ∀ x ∈ frames.map fun frame => (frame.size : ℤ), 0 ≤ x := by
  intro x hx
  obtain ⟨frame, -, rfl⟩ := List.mem_map.mp hx
  exact Int.natCast_nonneg _

theorem Accounted.fileBytes_le (h : Accounted disk w) :
    disk.fileBytes (cStr w.currentSegmentPath) ≤ w.totalBytesWritten := by
  rw [h.total_eq]
  exact le_add_of_nonneg_right (List.sum_nonneg (sizes_nonneg _))

/-- **The count is that of the segment's file** exactly if nothing but empty frames is elsewhere. -/
theorem Accounted.ownsBytes_iff (h : Accounted disk w) : OwnsBytes disk w ↔ w.NoneElsewhere := by
  rw [OwnsBytes, h.total_eq, add_eq_left]
  constructor
  · intro hzero frame hframe
    have hsize := List.all_zero_of_le_zero_le_of_sum_eq_zero (sizes_nonneg _) hzero
      (List.mem_map_of_mem hframe)
    exact Int.natCast_eq_zero.mp hsize
  · intro hnone
    refine List.sum_eq_zero fun x hx => ?_
    obtain ⟨frame, hframe, rfl⟩ := List.mem_map.mp hx
    rw [hnone frame hframe, Nat.cast_zero]

end RecordWriter

namespace Recorder

/-! ### The index once the queue is applied -/

/-- What the indexer still has to do are updates of segments that are there. -/
def PendingUpdates (s : Recorder) : Prop :=
  ∀ op ∈ s.indexer.getD [], ∃ segmentId endTime fileSize,
    op = .updateSegment segmentId endTime fileSize ∧ segmentId ≤ s.index.segments.seq

theorem flushedIndex_updateSegment (segmentId endTime fileSize : ℤ) (s : Recorder) :
    (s.updateSegment segmentId endTime fileSize).flushedIndex =
      s.flushedIndex.updateSegmentEnd segmentId endTime fileSize := by
  cases s with
  | mk index indexer recorders disk =>
      cases indexer with
      | none => rfl
      | some pendingOps => exact List.foldl_concat _ _ _ _

theorem flushedIndex_flush (s : Recorder) : s.flush.flushedIndex = s.flushedIndex := by
  cases s with
  | mk index indexer recorders disk => cases indexer <;> rfl

theorem seq_foldl_apply {ops : List PendingOp} (index : RecordIndex)
    (h : ∀ op ∈ ops, ∃ segmentId endTime fileSize,
      op = .updateSegment segmentId endTime fileSize) :
    (ops.foldl PendingOp.apply index).segments.seq = index.segments.seq := by
  induction ops generalizing index with
  | nil => rfl
  | cons op ops ih =>
      obtain ⟨segmentId, endTime, fileSize, rfl⟩ := h op List.mem_cons_self
      exact ih _ fun op' h' => h op' (List.mem_cons_of_mem _ h')

/-- A new segment comes after the rows the queue is about, whenever that is applied. -/
theorem foldl_apply_insertSegment {ops : List PendingOp} (index : RecordIndex) (row : SegmentRow)
    (h : ∀ op ∈ ops, ∃ segmentId endTime fileSize,
      op = .updateSegment segmentId endTime fileSize ∧ segmentId ≤ index.segments.seq) :
    ops.foldl PendingOp.apply (index.insertSegment row).1 =
      ((ops.foldl PendingOp.apply index).insertSegment row).1 := by
  induction ops generalizing index with
  | nil => rfl
  | cons op ops ih =>
      obtain ⟨segmentId, endTime, fileSize, rfl, hle⟩ := h op List.mem_cons_self
      have hcomm : PendingOp.apply (index.insertSegment row).1
          (.updateSegment segmentId endTime fileSize) =
          ((PendingOp.apply index (.updateSegment segmentId endTime fileSize)).insertSegment
            row).1 := by
        simp only [PendingOp.apply, RecordIndex.insertSegment, RecordIndex.updateSegmentEnd]
        rw [Table.modify_insert _ _ (by omega)]
      rw [List.foldl_cons, List.foldl_cons, hcomm]
      exact ih _ fun op' h' => h op' (List.mem_cons_of_mem _ h')

/-- The segments as they are once the queue is applied. -/
def segments (s : Recorder) : Table SegmentRow := s.flushedIndex.segments

/-- The ids of the segments that are being written. -/
def Current (s : Recorder) (segmentId : ℤ) : Prop :=
  ∃ channelId cr, s.recorders.lookup channelId = some cr ∧
    cr.state.currentSegmentId = segmentId

/-! ### What belongs together -/

/-- What a row is about, which no update changes: its id, its channel and its file. -/
def files (s : Recorder) : List (ℤ × ℤ × String) :=
  s.segments.rows.map fun row => (row.1, row.2.channelId, row.2.filePath)

/-- A recorder that has not opened a segment yet, or one that has, with the row of its segment. -/
def RecorderKept (segmentPath : ℕ → String) (files : List (ℤ × ℤ × String)) (disk : Disk)
    (channelId : ℤ) (cr : ChannelRecorder) : Prop :=
  cr.state.isRecording = true ∧ cr.writer.channelId = channelId ∧
    ((cr.writer.isOpen = false ∧ cr.state.currentSegmentId = -1 ∧
        cr.writer.currentSegmentPath = "" ∧ cr.writer.totalBytesWritten = 0 ∧
        cr.writer.written = []) ∨
      (cr.writer.isOpen = true ∧ 0 ≤ cr.state.currentSegmentId ∧
        (∃ n < disk.opened, cr.writer.currentSegmentPath = segmentPath n) ∧
        (cr.state.currentSegmentId, channelId, cStr cr.writer.currentSegmentPath) ∈ files ∧
        cr.writer.Accounted disk))

/-- How rows, files, frames and recorders belong together. -/
structure Kept (segmentPath : ℕ → String) (s : Recorder) : Prop where
  pending : s.PendingUpdates
  positive : ∀ file ∈ s.files, 0 ≤ file.1
  opened : ∀ file ∈ s.files, ∃ n < s.disk.opened, file.2.2 = cStr (segmentPath n)
  apart : s.files.Pairwise fun a b => a.2.2 ≠ b.2.2
  frames : ∀ frame ∈ s.disk.frames, ∃ id, (id, frame.channelId, frame.path) ∈ s.files
  recorders : ∀ channelId cr, s.recorders.lookup channelId = some cr →
    RecorderKept segmentPath s.files s.disk channelId cr

/-- A segment is finalised only if its recording has no bytes elsewhere: a frame that rotates is
empty, and so are all frames of earlier segments of a recording that rotates or stops. -/
def Owns (s : Recorder) : RecorderOp → Prop
  | .writeFrame channelId size pts isKeyframe _ =>
      ∀ cr ∈ s.recorders.lookup channelId, cr.writer.isOpen = true →
        cr.writer.full pts isKeyframe = true → size = 0 ∧ cr.writer.NoneElsewhere
  | .stopRecording channelId _ =>
      ∀ cr ∈ s.recorders.lookup channelId, cr.writer.isOpen = true → cr.writer.NoneElsewhere
  | .stopAll _ =>
      ∀ entry ∈ s.recorders.entries, entry.2.writer.isOpen = true → entry.2.writer.NoneElsewhere
  | _ => True

instance (s : Recorder) : ∀ op, Decidable (s.Owns op)
  | .writeFrame channelId _ _ _ _ =>
      inferInstanceAs (Decidable (∀ cr ∈ s.recorders.lookup channelId, _ → _ → _))
  | .stopRecording channelId _ =>
      inferInstanceAs (Decidable (∀ cr ∈ s.recorders.lookup channelId, _ → _))
  | .stopAll _ => inferInstanceAs (Decidable (∀ entry ∈ s.recorders.entries, _ → _))
  | .startRecording _ _ _ | .flush => .isTrue trivial

/-- The segments other than those of `writing` have the size of their files. -/
def RightExcept (writing : ℤ → Prop) (s : Recorder) : Prop :=
  ∀ row ∈ s.segments.rows, ¬ writing row.1 → row.2.fileSize = s.disk.fileBytes row.2.filePath

/-- The finalised segments have the size of their files. -/
def SegmentsRight (s : Recorder) : Prop := s.RightExcept s.Current

/-- **The sizes are right**: each finalised segment has the size of the frames in its file, and the
total of a channel that is not being recorded is what was recorded for it. -/
structure SizesRight (s : Recorder) : Prop where
  segment : s.SegmentsRight
  total : ∀ channelId, s.recorders.lookup channelId = none →
    s.flushedIndex.getChannelTotalSize channelId = s.disk.channelBytes channelId

/-! ### Totals -/

/-- The bytes of files that are all a channel's frames are in, and only those. -/
theorem sum_fileBytes {α : Type*} {path : α → String} {l : List α} {channelId : ℤ}
    (disk : Disk) (hapart : l.Pairwise fun a b => path a ≠ path b)
    (hframes : ∀ frame ∈ disk.frames,
      (∃ a ∈ l, path a = frame.path) ↔ frame.channelId = channelId) :
    (l.map fun a => disk.fileBytes (path a)).sum = disk.channelBytes channelId := by
  have hmem : ∀ frame ∈ disk.frames.filter (fun frame => frame.channelId = channelId),
      frame.path ∈ l.map path := by
    intro frame hframe
    obtain ⟨hframe, hchannel⟩ := List.mem_filter.mp hframe
    obtain ⟨a, ha, hpath⟩ := (hframes frame hframe).mpr (of_decide_eq_true hchannel)
    exact List.mem_map.mpr ⟨a, ha, hpath⟩
  have hgroups : ((l.map path).map (groupSum WrittenFrame.path (fun frame => (frame.size : ℤ))
      (disk.frames.filter fun frame => frame.channelId = channelId))).sum =
        disk.channelBytes channelId :=
    sum_groupSum (List.pairwise_map.mpr hapart) hmem
  rw [← hgroups, List.map_map]
  refine congrArg List.sum (List.map_congr_left fun a ha => ?_)
  -- a frame in one of the files is the channel's
  have hsame : (disk.frames.filter fun frame => frame.channelId = channelId).filter
      (fun frame => frame.path = path a) = disk.frames.filter fun frame => frame.path = path a := by
    rw [List.filter_filter]
    refine List.filter_congr fun frame hframe => ?_
    by_cases hpath : frame.path = path a
    · simp [hpath, (hframes frame hframe).mp ⟨a, ha, hpath.symm⟩]
    · simp [hpath]
  rw [Function.comp_apply, groupSum, hsame, Disk.fileBytes]

theorem mem_files {s : Recorder} {row : ℤ × SegmentRow} (h : row ∈ s.segments.rows) :
    (row.1, row.2.channelId, row.2.filePath) ∈ s.files :=
  List.mem_map_of_mem h

/-- An entry of `files` is a row's. -/
theorem exists_row {s : Recorder} {file : ℤ × ℤ × String} (h : file ∈ s.files) :
    ∃ row ∈ s.segments.rows, row.1 = file.1 ∧ row.2.channelId = file.2.1 ∧
      row.2.filePath = file.2.2 := by
  obtain ⟨row, hrow, rfl⟩ := List.mem_map.mp h
  exact ⟨row, hrow, rfl, rfl, rfl⟩

/-- An id is one file's. -/
theorem file_eq_of_id {s : Recorder} {a b : ℤ × ℤ × String} (ha : a ∈ s.files) (hb : b ∈ s.files)
    (h : a.1 = b.1) : a = b := by
  obtain ⟨rowA, hrowA, rfl⟩ := List.mem_map.mp ha
  obtain ⟨rowB, hrowB, rfl⟩ := List.mem_map.mp hb
  obtain rfl := s.segments.eq_of_fst_eq hrowA hrowB h
  rfl

namespace Kept

variable {s : Recorder} (hs : Kept segmentPath s)

include hs

/-- A path is one file's. -/
theorem file_eq_of_path {a b : ℤ × ℤ × String} (ha : a ∈ s.files) (hb : b ∈ s.files)
    (h : a.2.2 = b.2.2) : a = b := by
  have hnodup : (s.files.map fun file => file.2.2).Nodup := List.pairwise_map.mpr hs.apart
  exact List.inj_on_of_nodup_map hnodup ha hb h

/-- A row's segment that is being written is written for the row's channel. -/
theorem lookup_of_current {row : ℤ × SegmentRow} (hrow : row ∈ s.segments.rows)
    (hcurrent : s.Current row.1) : ∃ cr, s.recorders.lookup row.2.channelId = some cr := by
  obtain ⟨channelId, cr, hlookup, hid⟩ := hcurrent
  obtain ⟨-, -, hclosed | hopen⟩ := hs.recorders channelId cr hlookup
  · have := hs.positive _ (mem_files hrow)
    omega
  · have hfile := file_eq_of_id hopen.2.2.2.1 (mem_files hrow) hid
    obtain rfl : channelId = row.2.channelId := congrArg (fun file => file.2.1) hfile
    exact ⟨cr, hlookup⟩

/-- **Totals** follow from the sizes of the segments. -/
theorem sizesRight (h : s.SegmentsRight) : s.SizesRight := by
  refine ⟨h, fun channelId hlookup => ?_⟩
  -- no row of the channel is being written
  have hright : ∀ row ∈ s.flushedIndex.channelSegments channelId,
      row.2.fileSize = s.disk.fileBytes row.2.filePath := by
    intro row hrow
    obtain ⟨hrow, hchannel⟩ := List.mem_filter.mp hrow
    refine h row hrow fun hcurrent => ?_
    obtain ⟨cr, hcr⟩ := hs.lookup_of_current hrow hcurrent
    rw [of_decide_eq_true hchannel, hlookup] at hcr
    exact absurd hcr (by simp)
  have hapart : (s.flushedIndex.channelSegments channelId).Pairwise fun a b =>
      a.2.filePath ≠ b.2.filePath :=
    (List.pairwise_map.mp hs.apart).filter _
  -- frames and rows name the same channel for a path
  have hframes : ∀ frame ∈ s.disk.frames,
      (∃ row ∈ s.flushedIndex.channelSegments channelId, row.2.filePath = frame.path) ↔
        frame.channelId = channelId := by
    intro frame hframe
    obtain ⟨id, hfile⟩ := hs.frames frame hframe
    constructor
    · rintro ⟨row, hrow, hpath⟩
      obtain ⟨hrow, hchannel⟩ := List.mem_filter.mp hrow
      have heq := hs.file_eq_of_path (mem_files hrow) hfile hpath
      have hchannel' : row.2.channelId = frame.channelId := congrArg (fun file => file.2.1) heq
      exact hchannel'.symm.trans (of_decide_eq_true hchannel)
    · rintro rfl
      obtain ⟨row, hrow, -, hchannel, hpath⟩ := exists_row hfile
      exact ⟨row, List.mem_filter.mpr ⟨hrow, decide_eq_true hchannel⟩, hpath⟩
  rw [RecordIndex.getChannelTotalSize, List.map_congr_left hright]
  exact sum_fileBytes s.disk hapart hframes

end Kept

/-! ### Updating a row -/

theorem segments_updateSegment (s : Recorder) (segmentId endTime fileSize : ℤ) :
    (s.updateSegment segmentId endTime fileSize).segments =
      s.segments.modify segmentId fun row =>
        { row with endTime := endTime, fileSize := fileSize } := by
  rw [segments, flushedIndex_updateSegment]
  rfl

@[simp] theorem recorders_updateSegment (s : Recorder) (segmentId endTime fileSize : ℤ) :
    (s.updateSegment segmentId endTime fileSize).recorders = s.recorders := by
  rw [updateSegment]
  split <;> rfl

@[simp] theorem disk_updateSegment (s : Recorder) (segmentId endTime fileSize : ℤ) :
    (s.updateSegment segmentId endTime fileSize).disk = s.disk := by
  rw [updateSegment]
  split <;> rfl

theorem seq_updateSegment (segmentId endTime fileSize : ℤ) (s : Recorder) :
    (s.updateSegment segmentId endTime fileSize).index.segments.seq = s.index.segments.seq := by
  rw [updateSegment]
  split <;> rfl

@[simp] theorem files_updateSegment (s : Recorder) (segmentId endTime fileSize : ℤ) :
    (s.updateSegment segmentId endTime fileSize).files = s.files := by
  rw [files, segments_updateSegment, Table.modify, List.map_map]
  refine List.map_congr_left fun row _ => ?_
  simp only [Function.comp_apply, Table.modifyRow]
  split <;> rfl

theorem PendingUpdates.seq {s : Recorder} (h : s.PendingUpdates) :
    s.segments.seq = s.index.segments.seq :=
  seq_foldl_apply _ fun op hop => by
    obtain ⟨segmentId, endTime, fileSize, hop, -⟩ := h op hop
    exact ⟨segmentId, endTime, fileSize, hop⟩

theorem mem_indexer_updateSegment {s : Recorder} {segmentId endTime fileSize : ℤ} {op : PendingOp}
    (h : op ∈ (s.updateSegment segmentId endTime fileSize).indexer.getD []) :
    op ∈ s.indexer.getD [] ∨ op = .updateSegment segmentId endTime fileSize := by
  cases hindexer : s.indexer with
  | none => simp [Recorder.updateSegment, hindexer] at h
  | some pendingOps => simpa [Recorder.updateSegment, hindexer] using h

theorem Kept.updateSegment {s : Recorder} (hs : Kept segmentPath s) {file : ℤ × ℤ × String}
    (hfile : file ∈ s.files) (endTime fileSize : ℤ) :
    Kept segmentPath (s.updateSegment file.1 endTime fileSize) := by
  have hle : file.1 ≤ s.index.segments.seq := by
    obtain ⟨row, hrow, hid, -⟩ := exists_row hfile
    rw [← hs.pending.seq, ← hid]
    exact s.segments.bounded row hrow
  refine ⟨?_, ?_, ?_, ?_, ?_, ?_⟩
  · intro op hop
    rcases mem_indexer_updateSegment hop with hold | rfl
    · obtain ⟨id, endTime', fileSize', rfl, hid⟩ := hs.pending op hold
      exact ⟨id, endTime', fileSize', rfl, by rwa [seq_updateSegment]⟩
    · exact ⟨file.1, endTime, fileSize, rfl, by rwa [seq_updateSegment]⟩
  · simpa using hs.positive
  · simpa using hs.opened
  · simpa using hs.apart
  · simpa using hs.frames
  · simpa using hs.recorders

/-- **Updating a row** that was being written makes it right exactly when its size is its
file's. -/
theorem right_updateSegment {s : Recorder} {file : ℤ × ℤ × String} (hfile : file ∈ s.files)
    {writing : ℤ → Prop} (hnot : ¬ writing file.1)
    (h : s.RightExcept fun id => id = file.1 ∨ writing id) (endTime fileSize : ℤ) :
    (s.updateSegment file.1 endTime fileSize).RightExcept writing ↔
      fileSize = s.disk.fileBytes file.2.2 := by
  simp only [RightExcept, segments_updateSegment, disk_updateSegment]
  constructor
  · intro hright
    obtain ⟨row, hrow, hid, -, hpath⟩ := exists_row hfile
    have hnew := hright _ (List.mem_map_of_mem hrow)
      (by rw [Table.modifyRow_fst, hid]; exact hnot)
    rwa [Table.modifyRow, if_pos hid, hpath] at hnew
  · rintro hsize new hnew hwriting
    obtain ⟨row, hrow, rfl⟩ := Table.mem_modify_rows.mp hnew
    rw [Table.modifyRow_fst] at hwriting
    by_cases e : row.1 = file.1
    · have hpath := congrArg (fun f => f.2.2) (file_eq_of_id (mem_files hrow) hfile e)
      rw [Table.modifyRow, if_pos e, hsize, ← hpath]
    · rw [Table.modifyRow, if_neg e]
      exact h row hrow fun hor => hor.elim e hwriting

/-! ### Who is writing -/

/-- The segments other channels are writing. -/
def Others (s : Recorder) (channelId segmentId : ℤ) : Prop :=
  ∃ other cr, other ≠ channelId ∧ s.recorders.lookup other = some cr ∧
    cr.state.currentSegmentId = segmentId

theorem current_iff {s : Recorder} {channelId : ℤ} {cr : ChannelRecorder}
    (h : s.recorders.lookup channelId = some cr) {segmentId : ℤ} :
    s.Current segmentId ↔
      segmentId = cr.state.currentSegmentId ∨ s.Others channelId segmentId := by
  constructor
  · rintro ⟨other, cr', hlookup, hid⟩
    by_cases e : other = channelId
    · subst e
      obtain rfl := Option.some.inj (h.symm.trans hlookup)
      exact .inl hid.symm
    · exact .inr ⟨other, cr', e, hlookup, hid⟩
  · rintro (rfl | ⟨other, cr', -, hlookup, hid⟩)
    · exact ⟨channelId, cr, h, rfl⟩
    · exact ⟨other, cr', hlookup, hid⟩

theorem current_insert {s s' : Recorder} {channelId : ℤ} {cr : ChannelRecorder}
    (h : s'.recorders = s.recorders.insert channelId cr) {segmentId : ℤ} :
    s'.Current segmentId ↔
      segmentId = cr.state.currentSegmentId ∨ s.Others channelId segmentId := by
  have hlookup : s'.recorders.lookup channelId = some cr := by
    rw [h, AList.lookup_insert]
  rw [current_iff hlookup]
  refine or_congr_right ?_
  constructor <;>
  · rintro ⟨other, cr', hne, hother, hid⟩
    refine ⟨other, cr', hne, ?_, hid⟩
    simpa only [h, AList.lookup_insert_ne hne] using hother

theorem current_erase {s s' : Recorder} {channelId : ℤ}
    (h : s'.recorders = s.recorders.erase channelId) {segmentId : ℤ} :
    s'.Current segmentId ↔ s.Others channelId segmentId := by
  constructor
  · rintro ⟨other, cr, hlookup, hid⟩
    rw [h] at hlookup
    have hne : other ≠ channelId := by
      rintro rfl
      rw [AList.lookup_erase] at hlookup
      exact absurd hlookup (by simp)
    exact ⟨other, cr, hne, by rwa [AList.lookup_erase_ne hne] at hlookup, hid⟩
  · rintro ⟨other, cr, hne, hlookup, hid⟩
    exact ⟨other, cr, by rwa [h, AList.lookup_erase_ne hne], hid⟩

/-- A segment that one channel writes no other does. -/
theorem Kept.not_others {s : Recorder} (hs : Kept segmentPath s) {channelId : ℤ}
    {file : ℤ × ℤ × String} (hfile : file ∈ s.files) (hchannel : file.2.1 = channelId) :
    ¬ s.Others channelId file.1 := by
  rintro ⟨other, cr, hne, hlookup, hid⟩
  obtain ⟨-, -, hclosed | hopen⟩ := hs.recorders other cr hlookup
  · have := hs.positive _ hfile
    omega
  · have heq := file_eq_of_id hopen.2.2.2.1 hfile hid
    have hother : other = file.2.1 := congrArg (fun f => f.2.1) heq
    exact hne (hother.trans hchannel)

/-- The same rows are right when the same ones of them are being written. -/
theorem rightExcept_congr {s s' : Recorder} (hsegments : s'.segments = s.segments)
    (hdisk : s'.disk = s.disk) {p q : ℤ → Prop}
    (h : ∀ row ∈ s.segments.rows, p row.1 ↔ q row.1) : s'.RightExcept p ↔ s.RightExcept q := by
  simp only [RightExcept, hsegments, hdisk]
  refine forall₂_congr fun row hrow => ?_
  rw [h row hrow]

end Recorder

end LoongNvr.Storage
