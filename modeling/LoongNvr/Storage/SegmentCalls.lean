import LoongNvr.Storage.SegmentFiles

/-!
# Storage — SegmentCalls

What each call of the recorder does to rows, files and recorders.

* `Kept.stopRecording` and its siblings: each keeps the invariant.
* `right_stopRecording` and its siblings: which segments keep their sizes right.
* `writeFrame_waits`, `writeFrame_writes`, `writeFrame_opens`: the three ways of a frame.
* `step_writeFrame`: a frame, whichever way it goes.
-/

namespace LoongNvr.Storage
open Support LoongNvr.Core
open LoongNvr.Rules (cStr)

variable {segmentPath : ℕ → String}

namespace Recorder

/-! ### Stopping -/

variable {s : Recorder} {channelId : ℤ} {cr : ChannelRecorder}

theorem finalizeSegment_of_closed (h : cr.state.currentSegmentId = -1) (now : ℤ) :
    s.finalizeSegment cr now = s := by
  rw [finalizeSegment, if_pos (by omega)]

theorem finalizeSegment_of_open (h : 0 ≤ cr.state.currentSegmentId) (now : ℤ) :
    s.finalizeSegment cr now =
      s.updateSegment cr.state.currentSegmentId now cr.writer.totalBytesWritten := by
  rw [finalizeSegment, if_neg (by omega)]

/-- Recorders that belong to what is there. -/
theorem Kept.withRecorders (hs : Kept segmentPath s)
    {recorders : AList (fun _ : ℤ => ChannelRecorder)}
    (h : ∀ channelId cr, recorders.lookup channelId = some cr →
      RecorderKept segmentPath s.files s.disk channelId cr) :
    Kept segmentPath { s with recorders := recorders } :=
  ⟨hs.pending, hs.positive, hs.opened, hs.apart, hs.frames, h⟩

theorem Kept.finalizeSegment (hs : Kept segmentPath s)
    (hcr : s.recorders.lookup channelId = some cr) (now : ℤ) :
    Kept segmentPath (s.finalizeSegment cr now) := by
  obtain ⟨-, -, hclosed | hopen⟩ := hs.recorders channelId cr hcr
  · rwa [finalizeSegment_of_closed hclosed.2.1]
  · rw [finalizeSegment_of_open hopen.2.1]
    exact hs.updateSegment hopen.2.2.2.1 now _

@[simp] theorem recorders_finalizeSegment (s : Recorder) (cr : ChannelRecorder) (now : ℤ) :
    (s.finalizeSegment cr now).recorders = s.recorders := by
  rw [Recorder.finalizeSegment]
  split
  · rfl
  · exact recorders_updateSegment _ _ _ _

@[simp] theorem disk_finalizeSegment (s : Recorder) (cr : ChannelRecorder) (now : ℤ) :
    (s.finalizeSegment cr now).disk = s.disk := by
  rw [Recorder.finalizeSegment]
  split
  · rfl
  · exact disk_updateSegment _ _ _ _

@[simp] theorem files_finalizeSegment (s : Recorder) (cr : ChannelRecorder) (now : ℤ) :
    (s.finalizeSegment cr now).files = s.files := by
  rw [Recorder.finalizeSegment]
  split
  · rfl
  · exact files_updateSegment _ _ _ _

theorem stopRecording_eq (hs : Kept segmentPath s) (hcr : s.recorders.lookup channelId = some cr)
    (now : ℤ) :
    (s.stopRecording channelId now).1 =
      { s.finalizeSegment cr now with recorders := s.recorders.erase channelId } := by
  have hrecording := (hs.recorders channelId cr hcr).1
  simp only [stopRecording, hcr, hrecording, Bool.not_true, Bool.false_eq_true, if_false,
    recorders_finalizeSegment]

theorem Kept.stopRecording (hs : Kept segmentPath s) (channelId now : ℤ) :
    Kept segmentPath (s.stopRecording channelId now).1 := by
  cases hcr : s.recorders.lookup channelId with
  | none => simpa only [Recorder.stopRecording, hcr] using hs
  | some cr =>
      rw [stopRecording_eq hs hcr]
      refine (hs.finalizeSegment hcr now).withRecorders fun other cr' hlookup => ?_
      have hne : other ≠ channelId := by
        rintro rfl
        rw [AList.lookup_erase] at hlookup
        exact absurd hlookup (by simp)
      rw [AList.lookup_erase_ne hne] at hlookup
      simpa using hs.recorders other cr' hlookup

/-- **Finalising a recorder's segment** makes it right exactly when its recording has no bytes
elsewhere. -/
theorem right_finalizeSegment (hs : Kept segmentPath s)
    (hcr : s.recorders.lookup channelId = some cr) {writing : ℤ → Prop}
    (hnot : cr.writer.isOpen = true → ¬ writing cr.state.currentSegmentId)
    (h : s.RightExcept fun id => id = cr.state.currentSegmentId ∨ writing id) (now : ℤ) :
    (s.finalizeSegment cr now).RightExcept writing ↔
      (cr.writer.isOpen = true → cr.writer.NoneElsewhere) := by
  obtain ⟨-, -, hclosed | hopen⟩ := hs.recorders channelId cr hcr
  · -- no segment yet
    rw [finalizeSegment_of_closed hclosed.2.1]
    refine iff_of_true ?_ fun hopen => absurd (hclosed.1.symm.trans hopen) Bool.false_ne_true
    refine (rightExcept_congr rfl rfl fun row hrow => ?_).mpr h
    have := hs.positive _ (mem_files hrow)
    exact ⟨.inr, fun hor => hor.resolve_left (by omega)⟩
  · obtain ⟨hisOpen, hid, -, hfile, haccounted⟩ := hopen
    have howns : cr.writer.totalBytesWritten =
        s.disk.fileBytes (cStr cr.writer.currentSegmentPath) ↔ cr.writer.NoneElsewhere :=
      haccounted.ownsBytes_iff
    rw [finalizeSegment_of_open hid, right_updateSegment hfile (hnot hisOpen) h, howns]
    exact ⟨fun e _ => e, fun e => e hisOpen⟩

/-- The segment of a recorder is not another's. -/
theorem Kept.not_others_current (hs : Kept segmentPath s)
    (hcr : s.recorders.lookup channelId = some cr) (hopen : cr.writer.isOpen = true) :
    ¬ s.Others channelId cr.state.currentSegmentId := by
  obtain ⟨-, -, hclosed | hkept⟩ := hs.recorders channelId cr hcr
  · exact absurd (hclosed.1.symm.trans hopen) Bool.false_ne_true
  · exact hs.not_others hkept.2.2.2.1 rfl

theorem right_stopRecording (hs : Kept segmentPath s) (h : s.SegmentsRight) (channelId now : ℤ) :
    (s.stopRecording channelId now).1.SegmentsRight ↔ s.Owns (.stopRecording channelId now) := by
  cases hcr : s.recorders.lookup channelId with
  | none => simpa [stopRecording, hcr, Owns] using h
  | some cr =>
      have howns : s.Owns (.stopRecording channelId now) ↔
          (cr.writer.isOpen = true → cr.writer.NoneElsewhere) := by
        simp [Owns, hcr]
      have hstop : ({ s.finalizeSegment cr now with recorders := s.recorders.erase channelId } :
          Recorder).SegmentsRight ↔ (s.finalizeSegment cr now).RightExcept (s.Others channelId) :=
        rightExcept_congr rfl rfl fun row _ => current_erase (s := s) rfl
      have hright : s.RightExcept fun id =>
          id = cr.state.currentSegmentId ∨ s.Others channelId id :=
        (rightExcept_congr rfl rfl fun row _ => (current_iff hcr).symm).mpr h
      rw [stopRecording_eq hs hcr, howns, hstop]
      exact right_finalizeSegment hs hcr (hs.not_others_current hcr) hright now

/-! ### Stopping all -/

/-- The loop of `StopAll`. -/
def finalizeAll (now : ℤ) (entries : List (Sigma fun _ : ℤ => ChannelRecorder)) (s : Recorder) :
    Recorder :=
  entries.foldl
    (fun s entry => if entry.2.state.isRecording then s.finalizeSegment entry.2 now else s) s

/-- The segments the entries are writing. -/
def WrittenBy (entries : List (Sigma fun _ : ℤ => ChannelRecorder)) (segmentId : ℤ) : Prop :=
  ∃ entry ∈ entries, entry.2.state.currentSegmentId = segmentId

theorem mem_rows_finalizeSegment {row : ℤ × SegmentRow} (hrow : row ∈ s.segments.rows)
    (hne : cr.state.currentSegmentId ≠ row.1) (now : ℤ) :
    row ∈ (s.finalizeSegment cr now).segments.rows := by
  rw [finalizeSegment]
  split
  · exact hrow
  · rw [segments_updateSegment]
    exact Table.mem_modify_rows.mpr ⟨row, hrow, if_neg hne.symm⟩

theorem finalizeAll_cons (hs : Kept segmentPath s) (now : ℤ)
    {entry : Sigma fun _ : ℤ => ChannelRecorder}
    (hentry : s.recorders.lookup entry.1 = some entry.2)
    (entries : List (Sigma fun _ : ℤ => ChannelRecorder)) :
    s.finalizeAll now (entry :: entries) = (s.finalizeSegment entry.2 now).finalizeAll now entries
    := by
  rw [finalizeAll, List.foldl_cons, if_pos (hs.recorders _ _ hentry).1]
  rfl

/-- What the loop leaves alone. -/
theorem finalizeAll_frame (now : ℤ) {entries : List (Sigma fun _ : ℤ => ChannelRecorder)}
    (hs : Kept segmentPath s)
    (hentries : ∀ entry ∈ entries, s.recorders.lookup entry.1 = some entry.2) :
    Kept segmentPath (s.finalizeAll now entries) ∧
      (s.finalizeAll now entries).disk = s.disk ∧
      ∀ row ∈ s.segments.rows, ¬ WrittenBy entries row.1 →
        row ∈ (s.finalizeAll now entries).segments.rows := by
  induction entries generalizing s with
  | nil => exact ⟨hs, rfl, fun row hrow _ => hrow⟩
  | cons entry entries ih =>
      have hentry := hentries entry List.mem_cons_self
      rw [finalizeAll_cons hs now hentry]
      obtain ⟨hkept, hdisk, hrows⟩ := ih (hs.finalizeSegment hentry now) fun e he => by
        simpa using hentries e (List.mem_cons_of_mem _ he)
      refine ⟨hkept, by simpa using hdisk, fun row hrow hnot => ?_⟩
      refine hrows row (mem_rows_finalizeSegment hrow (fun e => hnot ?_) now) fun hw => hnot ?_
      · exact ⟨entry, List.mem_cons_self, e⟩
      · obtain ⟨e, he, hid⟩ := hw
        exact ⟨e, List.mem_cons_of_mem _ he, hid⟩

/-- **Stopping all** leaves the segments right exactly when no recording has bytes elsewhere than in
its last segment. -/
theorem right_finalizeAll (now : ℤ) {entries : List (Sigma fun _ : ℤ => ChannelRecorder)}
    (hs : Kept segmentPath s)
    (hentries : ∀ entry ∈ entries, s.recorders.lookup entry.1 = some entry.2)
    (hkeys : (entries.map Sigma.fst).Nodup) (h : s.RightExcept (WrittenBy entries)) :
    (s.finalizeAll now entries).RightExcept (fun _ => False) ↔
      ∀ entry ∈ entries, entry.2.writer.isOpen = true → entry.2.writer.NoneElsewhere := by
  induction entries generalizing s with
  | nil =>
      refine iff_of_true (fun row hrow _ => h row hrow ?_) fun entry hentry => ?_
      · rintro ⟨entry, hentry, -⟩
        exact absurd hentry List.not_mem_nil
      · exact absurd hentry List.not_mem_nil
  | cons entry entries ih =>
      have hentry := hentries entry List.mem_cons_self
      have hlater : ∀ e ∈ entries, (s.finalizeSegment entry.2 now).recorders.lookup e.1 =
          some e.2 := fun e he => by
        simpa using hentries e (List.mem_cons_of_mem _ he)
      rw [List.map_cons, List.nodup_cons] at hkeys
      have hkept := hs.finalizeSegment hentry now
      have hfirst : (s.finalizeSegment entry.2 now).RightExcept (WrittenBy entries) ↔
          (entry.2.writer.isOpen = true → entry.2.writer.NoneElsewhere) := by
        refine right_finalizeSegment hs hentry (fun hopen => ?_) ?_ now
        · -- a later entry with the same segment would be another channel's
          rintro ⟨e, he, hid⟩
          refine hs.not_others_current hentry hopen ⟨e.1, e.2, ?_, ?_, hid⟩
          · exact fun heq => hkeys.1 (heq ▸ List.mem_map_of_mem he)
          · exact hentries e (List.mem_cons_of_mem _ he)
        · refine (rightExcept_congr rfl rfl fun row _ => ?_).mpr h
          simp [WrittenBy, eq_comm]
      have hrest := fun hright => ih hkept hlater hkeys.2 hright
      rw [finalizeAll_cons hs now hentry, List.forall_mem_cons, ← hfirst]
      constructor
      · intro hall
        -- what is right in the end was right after the first
        have hright : (s.finalizeSegment entry.2 now).RightExcept (WrittenBy entries) := by
          obtain ⟨-, hdisk, hrows⟩ := finalizeAll_frame now hkept hlater
          intro row hrow hnot
          rw [← hdisk]
          exact hall row (hrows row hrow hnot) not_false
        exact ⟨hright, by simpa using (hrest hright).mp hall⟩
      · rintro ⟨hright, howns⟩
        exact (hrest hright).mpr (by simpa using howns)

theorem Kept.stopAll (hs : Kept segmentPath s) (now : ℤ) : Kept segmentPath (s.stopAll now) := by
  have hentries : ∀ entry ∈ s.recorders.entries, s.recorders.lookup entry.1 = some entry.2 :=
    fun entry hentry => AList.mem_lookup_iff.mpr hentry
  refine (finalizeAll_frame now hs hentries).1.withRecorders fun channelId cr hlookup => ?_
  exact absurd hlookup (by simp)

theorem right_stopAll (hs : Kept segmentPath s) (h : s.SegmentsRight) (now : ℤ) :
    (s.stopAll now).SegmentsRight ↔ s.Owns (.stopAll now) := by
  have hentries : ∀ entry ∈ s.recorders.entries, s.recorders.lookup entry.1 = some entry.2 :=
    fun entry hentry => AList.mem_lookup_iff.mpr hentry
  have hnone : (s.stopAll now).SegmentsRight ↔
      (s.finalizeAll now s.recorders.entries).RightExcept (fun _ => False) := by
    have hcurrent : ∀ id, (s.stopAll now).Current id ↔ False := by
      refine fun id => iff_of_false ?_ not_false
      rintro ⟨channelId, cr, hlookup, -⟩
      exact absurd hlookup (by simp [Recorder.stopAll])
    have hsegments : (s.stopAll now).segments = (s.finalizeAll now s.recorders.entries).segments :=
      rfl
    simp only [SegmentsRight, RightExcept, hcurrent, hsegments]
    rfl
  have hwritten : s.RightExcept (WrittenBy s.recorders.entries) := by
    refine (rightExcept_congr rfl rfl fun row _ => ?_).mpr h
    constructor
    · rintro ⟨entry, hentry, hid⟩
      exact ⟨entry.1, entry.2, hentries entry hentry, hid⟩
    · rintro ⟨channelId, cr, hlookup, hid⟩
      exact ⟨⟨channelId, cr⟩, AList.mem_lookup_iff.mp hlookup, hid⟩
  rw [hnone]
  exact right_finalizeAll now hs hentries s.recorders.nodupKeys hwritten

/-! ### Starting -/

theorem startRecording_eq (hs : Kept segmentPath s) (channelId : ℤ) (config : RecordConfig)
    (now : ℤ) :
    (s.startRecording channelId config now).1 = s ∨
      s.recorders.lookup channelId = none ∧
        (s.startRecording channelId config now).1 =
          { s with
            recorders := s.recorders.insert channelId
              { writer := { channelId := channelId, config := config }
                config := config
                state := { isRecording := true, segmentStartTimeMs := now } } } := by
  cases hcr : s.recorders.lookup channelId with
  | none => exact .inr ⟨rfl, by simp [startRecording, hcr]⟩
  | some cr => exact .inl (by simp [startRecording, hcr, (hs.recorders channelId cr hcr).1])

theorem Kept.startRecording (hs : Kept segmentPath s) (channelId : ℤ) (config : RecordConfig)
    (now : ℤ) : Kept segmentPath (s.startRecording channelId config now).1 := by
  obtain e | ⟨-, e⟩ := startRecording_eq hs channelId config now <;> rw [e]
  · exact hs
  · refine hs.withRecorders fun other cr hlookup => ?_
    rcases lookup_insert_cases hlookup with ⟨rfl, rfl⟩ | ⟨-, hold⟩
    · exact ⟨rfl, rfl, .inl ⟨rfl, rfl, rfl, rfl, rfl⟩⟩
    · exact hs.recorders other cr hold

theorem right_startRecording (hs : Kept segmentPath s) (h : s.SegmentsRight) (channelId : ℤ)
    (config : RecordConfig) (now : ℤ) :
    (s.startRecording channelId config now).1.SegmentsRight := by
  obtain e | ⟨hnone, e⟩ := startRecording_eq hs channelId config now <;> rw [e]
  · exact h
  · refine (rightExcept_congr rfl rfl fun row hrow => ?_).mpr h
    rw [current_insert (s := s) rfl]
    have hid := hs.positive _ (mem_files hrow)
    constructor
    · rintro (hrow | ⟨other, cr, -, hlookup, hid⟩)
      · exact absurd hrow (by simp only; omega)
      · exact ⟨other, cr, hlookup, hid⟩
    · rintro ⟨other, cr, hlookup, hid⟩
      refine .inr ⟨other, cr, ?_, hlookup, hid⟩
      rintro rfl
      rw [hnone] at hlookup
      exact absurd hlookup (by simp)

/-! ### Flushing -/

theorem segments_flush (s : Recorder) : s.flush.segments = s.segments :=
  congrArg RecordIndex.segments (flushedIndex_flush s)

theorem Kept.flush (hs : Kept segmentPath s) : Kept segmentPath s.flush := by
  have hfiles : s.flush.files = s.files := by rw [files, files, segments_flush]
  refine ⟨?_, ?_, ?_, ?_, ?_, ?_⟩
  · intro op hop
    exfalso
    cases hindexer : s.indexer <;> simp [Recorder.flush, hindexer] at hop
  · rw [hfiles]
    exact hs.positive
  · rw [hfiles]
    exact hs.opened
  · rw [hfiles]
    exact hs.apart
  · rw [hfiles]
    exact hs.frames
  · rw [hfiles]
    exact hs.recorders

theorem right_flush (h : s.SegmentsRight) : s.flush.SegmentsRight :=
  (rightExcept_congr (segments_flush s) rfl fun _ _ => Iff.rfl).mpr h

/-! ### Writing to the open segment -/

/-- A recorder whose file no one else writes to stays as it is. -/
theorem RecorderKept.mono {files files' : List (ℤ × ℤ × String)} {disk disk' : Disk}
    (h : RecorderKept segmentPath files disk channelId cr) (hfiles : ∀ f ∈ files, f ∈ files')
    (hopened : disk.opened ≤ disk'.opened) (hframes : ∀ f ∈ disk.frames, f ∈ disk'.frames)
    (hbytes : ∀ path, (cr.state.currentSegmentId, channelId, path) ∈ files →
      disk'.fileBytes path = disk.fileBytes path) :
    RecorderKept segmentPath files' disk' channelId cr := by
  obtain ⟨hrecording, hchannel, hclosed | ⟨hopen, hid, ⟨n, hn, hpath⟩, hfile, haccounted⟩⟩ := h
  · exact ⟨hrecording, hchannel, .inl hclosed⟩
  · refine ⟨hrecording, hchannel, .inr ⟨hopen, hid, ⟨n, hn.trans_le hopened, hpath⟩,
      hfiles _ hfile, haccounted.toCounted.mono hframes, ?_⟩⟩
    rw [hbytes _ hfile, haccounted.file]

/-- The recorder after a frame for its open segment. -/
def written (cr : ChannelRecorder) (size : ℕ) (disk : Disk) : ChannelRecorder :=
  { cr with
    writer := (cr.writer.writePacket size disk).1
    state := { cr.state with totalFrames := cr.state.totalFrames + 1 } }

theorem Kept.write (hs : Kept segmentPath s) (hcr : s.recorders.lookup channelId = some cr)
    (hopen : cr.writer.isOpen = true) (size : ℕ) :
    Kept segmentPath
      { s with
        disk := (cr.writer.writePacket size s.disk).2
        recorders := s.recorders.insert channelId (written cr size s.disk) } := by
  obtain ⟨hrecording, hchannel, hclosed | ⟨-, hid, hpath, hfile, haccounted⟩⟩ :=
    hs.recorders channelId cr hcr
  · exact absurd (hclosed.1.symm.trans hopen) Bool.false_ne_true
  · refine ⟨hs.pending, hs.positive, hs.opened, hs.apart, fun frame hframe => ?_,
      fun other cr' hlookup => ?_⟩
    · rcases List.mem_append.mp hframe with hframe | hframe
      · exact hs.frames frame hframe
      · obtain rfl := List.mem_singleton.mp hframe
        exact ⟨_, hchannel ▸ hfile⟩
    · rcases lookup_insert_cases hlookup with ⟨rfl, rfl⟩ | ⟨hne, hold⟩
      · exact ⟨hrecording, hchannel, .inr ⟨hopen, hid, hpath, hfile, haccounted.writePacket size⟩⟩
      · refine (hs.recorders other cr' hold).mono (fun _ h => h) le_rfl
          (fun _ => List.mem_append_left _) fun path hother => ?_
        -- a path is one channel's
        have hpaths : cStr cr.writer.currentSegmentPath ≠ path := by
          rintro rfl
          have heq := hs.file_eq_of_path hother hfile rfl
          exact hne (congrArg (fun f => f.2.1) heq)
        simp only [RecordWriter.writePacket, Disk.fileBytes_append, if_neg hpaths, add_zero]

theorem right_write (hs : Kept segmentPath s) (h : s.SegmentsRight)
    (hcr : s.recorders.lookup channelId = some cr) (hopen : cr.writer.isOpen = true) (size : ℕ) :
    SegmentsRight
      { s with
        disk := (cr.writer.writePacket size s.disk).2
        recorders := s.recorders.insert channelId (written cr size s.disk) } := by
  obtain ⟨-, -, hclosed | ⟨-, -, -, hfile, -⟩⟩ := hs.recorders channelId cr hcr
  · exact absurd (hclosed.1.symm.trans hopen) Bool.false_ne_true
  · intro row hrow hnot
    have hsame : ∀ id, id = (written cr size s.disk).state.currentSegmentId ∨
        s.Others channelId id ↔ s.Current id := fun id => (current_iff hcr).symm
    have hcurrent : ¬ s.Current row.1 := by
      rwa [current_insert (s := s) rfl, hsame] at hnot
    have hpath : cStr cr.writer.currentSegmentPath ≠ row.2.filePath := by
      intro e
      have heq := hs.file_eq_of_path hfile (mem_files hrow) e
      exact hcurrent ((current_iff hcr).mpr (.inl (congrArg (·.1) heq).symm))
    simp only [RecordWriter.writePacket, Disk.fileBytes_append, if_neg hpath, add_zero]
    exact h row hrow hcurrent

/-! ### Opening a segment -/

/-- The recorder after a frame that opened the `n`-th segment, as `segmentId`. -/
def reopened (segmentPath : ℕ → String) (n : ℕ) (pts : ℤ) (size : ℕ) (disk : Disk)
    (segmentId now : ℤ) (cr : ChannelRecorder) : ChannelRecorder :=
  { cr with
    writer := (RecordWriter.writePacket size
      { cr.writer with
        currentSegmentPath := segmentPath n
        isOpen := true
        segmentStartPts := pts } { disk with opened := n + 1 }).1
    state :=
      { cr.state with
        currentSegmentId := segmentId
        segmentStartTimeMs := now
        totalFrames := cr.state.totalFrames + 1 } }

/-- The recorder's state after such a frame. -/
def opening (segmentPath : ℕ → String) (n : ℕ) (pts : ℤ) (size : ℕ) (channelId now : ℤ)
    (cr : ChannelRecorder) (s : Recorder) : Recorder :=
  { s with
    index := (s.index.insertSegment (newSegment channelId now (segmentPath n) cr.config)).1
    recorders := s.recorders.insert channelId
      (reopened segmentPath n pts size s.disk (s.index.segments.seq + 1) now cr)
    disk :=
      { s.disk with
        opened := n + 1
        frames := s.disk.frames ++
          [{ path := cStr (segmentPath n), channelId := cr.writer.channelId, size := size }] } }

section Opening

variable (n : ℕ) (pts : ℤ) (size : ℕ) (channelId now : ℤ) (cr : ChannelRecorder)

theorem segments_opening (hs : Kept segmentPath s) :
    ∃ row : SegmentRow, row.channelId = channelId ∧ row.filePath = cStr (segmentPath n) ∧
      (s.opening segmentPath n pts size channelId now cr).segments = s.segments.insert row := by
  have hcomm := foldl_apply_insertSegment s.index
    (newSegment channelId now (segmentPath n) cr.config) hs.pending
  exact ⟨_, rfl, rfl, congrArg RecordIndex.segments hcomm⟩

theorem files_opening (hs : Kept segmentPath s) :
    (s.opening segmentPath n pts size channelId now cr).files =
      s.files ++ [(s.index.segments.seq + 1, channelId, cStr (segmentPath n))] := by
  obtain ⟨row, hchannel, hpath, hsegments⟩ := segments_opening n pts size channelId now cr hs
  rw [files, hsegments, Table.insert, List.map_append, hs.pending.seq]
  simp [files, hchannel, hpath]

/-- No row has the path of a segment that was not opened yet. -/
theorem Kept.path_ne (hs : Kept segmentPath s) {n : ℕ}
    (hpaths : Function.Injective fun n => cStr (segmentPath n)) (hn : s.disk.opened ≤ n)
    {file : ℤ × ℤ × String} (hfile : file ∈ s.files) : cStr (segmentPath n) ≠ file.2.2 := by
  obtain ⟨m, hm, hpath⟩ := hs.opened file hfile
  rw [hpath]
  intro e
  have := hpaths e
  omega

variable {n channelId cr}

/-- The recorder that opened the segment: no frame is in the file before its own. -/
theorem Kept.reopened (hs : Kept segmentPath s)
    (hpaths : Function.Injective fun n => cStr (segmentPath n)) (hn : s.disk.opened ≤ n)
    (hrecording : cr.state.isRecording = true) (hchannel : cr.writer.channelId = channelId)
    (hcounted : cr.writer.Counted s.disk) :
    RecorderKept segmentPath (s.opening segmentPath n pts size channelId now cr).files
      (s.opening segmentPath n pts size channelId now cr).disk channelId
      (reopened segmentPath n pts size s.disk (s.index.segments.seq + 1) now cr) := by
  have hseq : 0 ≤ s.index.segments.seq := s.index.segments.seq_nonneg
  have hnew : ∀ frame ∈ s.disk.frames, frame.path ≠ cStr (segmentPath n) := by
    intro frame hframe hpath
    obtain ⟨id, hfile⟩ := hs.frames frame hframe
    exact hs.path_ne hpaths hn hfile hpath.symm
  have haccounted : RecordWriter.Accounted { s.disk with opened := n + 1 } { cr.writer with
      currentSegmentPath := segmentPath n
      isOpen := true
      segmentStartPts := pts } :=
    RecordWriter.Counted.accounted ⟨hcounted.total, hcounted.onDisk⟩ hnew
  refine ⟨hrecording, hchannel, .inr ⟨rfl, ?_, ⟨n, Nat.lt_succ_self n, rfl⟩, ?_, ?_⟩⟩
  · simp only [Recorder.reopened]
    omega
  · rw [files_opening n pts size channelId now cr hs]
    exact List.mem_append_right _ (List.mem_singleton_self _)
  · exact haccounted.writePacket size

theorem Kept.opening (hs : Kept segmentPath s)
    (hpaths : Function.Injective fun n => cStr (segmentPath n)) (hn : s.disk.opened ≤ n)
    (hrecording : cr.state.isRecording = true) (hchannel : cr.writer.channelId = channelId)
    (hcounted : cr.writer.Counted s.disk) :
    Kept segmentPath (s.opening segmentPath n pts size channelId now cr) := by
  have hseq : 0 ≤ s.index.segments.seq := s.index.segments.seq_nonneg
  have hfiles := files_opening n pts size channelId now cr hs
  have hne : ∀ file ∈ s.files, cStr (segmentPath n) ≠ file.2.2 := fun file hfile =>
    hs.path_ne hpaths hn hfile
  refine ⟨fun op hop => ?_, ?_, ?_, ?_, fun frame hframe => ?_, fun other cr' hlookup => ?_⟩
  · obtain ⟨segmentId, endTime, fileSize, rfl, hle⟩ := hs.pending op hop
    exact ⟨segmentId, endTime, fileSize, rfl, hle.trans (Int.le_add_one le_rfl)⟩
  · rw [hfiles]
    intro file hfile
    rcases List.mem_append.mp hfile with hfile | hfile
    · exact hs.positive file hfile
    · obtain rfl := List.mem_singleton.mp hfile
      simp only
      omega
  · rw [hfiles]
    intro file hfile
    rcases List.mem_append.mp hfile with hfile | hfile
    · obtain ⟨m, hm, hpath⟩ := hs.opened file hfile
      exact ⟨m, by simp only [Recorder.opening]; omega, hpath⟩
    · obtain rfl := List.mem_singleton.mp hfile
      exact ⟨n, Nat.lt_succ_self n, rfl⟩
  · rw [hfiles, List.pairwise_append]
    refine ⟨hs.apart, List.pairwise_singleton _ _, fun a ha b hb => ?_⟩
    obtain rfl := List.mem_singleton.mp hb
    exact (hne a ha).symm
  · rw [hfiles]
    rcases List.mem_append.mp hframe with hframe | hframe
    · obtain ⟨id, hfile⟩ := hs.frames frame hframe
      exact ⟨id, List.mem_append_left _ hfile⟩
    · obtain rfl := List.mem_singleton.mp hframe
      exact ⟨s.index.segments.seq + 1, List.mem_append_right _ (by simp [hchannel])⟩
  · rcases lookup_insert_cases hlookup with ⟨rfl, rfl⟩ | ⟨-, hold⟩
    · -- the recorder that opened it
      exact hs.reopened pts size now hpaths hn hrecording hchannel hcounted
    · -- another one
      refine (hs.recorders other cr' hold).mono ?_ ?_ (fun _ => List.mem_append_left _)
        fun path hfile => ?_
      · rw [hfiles]
        exact fun f hf => List.mem_append_left _ hf
      · simp only [Recorder.opening]
        omega
      · have hpath : cStr (segmentPath n) ≠ path := hne _ hfile
        simp only [Recorder.opening, Disk.fileBytes_append, if_neg hpath, add_zero]

theorem right_opening (hs : Kept segmentPath s)
    (hpaths : Function.Injective fun n => cStr (segmentPath n)) (hn : s.disk.opened ≤ n) :
    (s.opening segmentPath n pts size channelId now cr).SegmentsRight ↔
      s.RightExcept (s.Others channelId) := by
  obtain ⟨new, -, -, hsegments⟩ := segments_opening n pts size channelId now cr hs
  have hcurrent : ∀ id, (s.opening segmentPath n pts size channelId now cr).Current id ↔
      id = s.segments.seq + 1 ∨ s.Others channelId id := by
    intro id
    rw [current_insert (s := s) rfl, hs.pending.seq]
    rfl
  have hold : ∀ row ∈ s.segments.rows,
      (s.opening segmentPath n pts size channelId now cr).disk.fileBytes row.2.filePath =
        s.disk.fileBytes row.2.filePath ∧ row.1 ≠ s.segments.seq + 1 := by
    intro row hrow
    have hpath : cStr (segmentPath n) ≠ row.2.filePath := hs.path_ne hpaths hn (mem_files hrow)
    have hle := s.segments.bounded row hrow
    refine ⟨?_, by omega⟩
    simp only [opening, Disk.fileBytes_append, if_neg hpath, add_zero]
  simp only [SegmentsRight, RightExcept, hsegments, hcurrent]
  constructor
  · intro h row hrow hnot
    obtain ⟨hbytes, hne⟩ := hold row hrow
    rw [← hbytes]
    exact h row (List.mem_append_left _ hrow) fun hor => hor.elim hne hnot
  · intro h row hrow hnot
    rcases List.mem_append.mp hrow with hrow | hrow
    · rw [(hold row hrow).1]
      exact h row hrow fun hothers => hnot (.inr hothers)
    · obtain rfl := List.mem_singleton.mp hrow
      exact absurd (.inl rfl) hnot

end Opening

/-! ### A frame -/

section Frame

variable {size : ℕ} {pts now : ℤ} {isKeyframe : Bool}

theorem updateSegment_withDisk (s : Recorder) (disk : Disk) (segmentId endTime fileSize : ℤ) :
    updateSegment segmentId endTime fileSize { s with disk := disk } =
      { s.updateSegment segmentId endTime fileSize with disk := disk } := by
  cases s with
  | mk index indexer recorders disk => cases indexer <;> rfl

/-- A frame no segment is opened for, and that is not written. -/
theorem writeFrame_waits (hcr : s.recorders.lookup channelId = some cr)
    (hrecording : cr.state.isRecording = true)
    (hwriter : cr.writer.writeFrame segmentPath size pts isKeyframe s.disk =
      (cr.writer, s.disk)) :
    (s.writeFrame segmentPath channelId size pts isKeyframe now).1 =
      { s with
        recorders := s.recorders.insert channelId
          { cr with state := { cr.state with totalFrames := cr.state.totalFrames + 1 } } } := by
  simp [writeFrame, hcr, hrecording, hwriter]

/-- A frame for the open segment. -/
theorem writeFrame_writes (hcr : s.recorders.lookup channelId = some cr)
    (hrecording : cr.state.isRecording = true)
    (hwriter : cr.writer.writeFrame segmentPath size pts isKeyframe s.disk =
      cr.writer.writePacket size s.disk) :
    (s.writeFrame segmentPath channelId size pts isKeyframe now).1 =
      { s with
        disk := (cr.writer.writePacket size s.disk).2
        recorders := s.recorders.insert channelId (written cr size s.disk) } := by
  simp [writeFrame, hcr, hrecording, hwriter, RecordWriter.writePacket, written]

/-- A frame that opens a segment: the one before it, if any, is finalised. -/
theorem writeFrame_opens {n : ℕ} (hcr : s.recorders.lookup channelId = some cr)
    (hrecording : cr.state.isRecording = true)
    (hwriter : cr.writer.writeFrame segmentPath size pts isKeyframe s.disk =
      RecordWriter.writePacket size
        { cr.writer with
          currentSegmentPath := segmentPath n
          isOpen := true
          segmentStartPts := pts }
        { s.disk with opened := n + 1 })
    (hpath : segmentPath n ≠ cr.writer.currentSegmentPath) :
    (s.writeFrame segmentPath channelId size pts isKeyframe now).1 =
      (if cr.writer.currentSegmentPath ≠ "" ∧ 0 ≤ cr.state.currentSegmentId then
        s.updateSegment cr.state.currentSegmentId now (cr.writer.totalBytesWritten + size)
      else s).opening segmentPath n pts size channelId now cr := by
  have hnot : ¬ (!cr.state.isRecording) = true := by simp [hrecording]
  simp only [writeFrame, hcr, if_neg hnot, hwriter, RecordWriter.writePacket, hpath, ne_eq,
    not_false_eq_true, if_true, ge_iff_le]
  split
  · rename_i hold
    simp only [finalizeSegment, if_neg (not_lt.mpr hold.2), updateSegment_withDisk, opening,
      reopened, RecordWriter.writePacket, disk_updateSegment]
    rfl
  · rfl

/-- The frames that finalise a segment, for a recorder that is there. -/
theorem owns_writeFrame (hcr : s.recorders.lookup channelId = some cr) :
    s.Owns (.writeFrame channelId size pts isKeyframe now) ↔
      (cr.writer.isOpen = true → cr.writer.full pts isKeyframe = true →
        size = 0 ∧ cr.writer.NoneElsewhere) := by
  simp [Owns, hcr]

theorem kept_waits (hs : Kept segmentPath s) (hcr : s.recorders.lookup channelId = some cr) :
    Kept segmentPath { s with
      recorders := s.recorders.insert channelId
        { cr with state := { cr.state with totalFrames := cr.state.totalFrames + 1 } } } := by
  refine hs.withRecorders fun other cr' hlookup => ?_
  rcases lookup_insert_cases hlookup with ⟨rfl, rfl⟩ | ⟨-, hold⟩
  · exact hs.recorders other cr hcr
  · exact hs.recorders other cr' hold

theorem right_waits (h : s.SegmentsRight) (hcr : s.recorders.lookup channelId = some cr) :
    SegmentsRight { s with
      recorders := s.recorders.insert channelId
        { cr with state := { cr.state with totalFrames := cr.state.totalFrames + 1 } } } := by
  refine (rightExcept_congr rfl rfl fun row _ => ?_).mpr h
  rw [current_insert (s := s) rfl, current_iff hcr]

/-- The first segment of a recording finalises none. -/
theorem right_opening_first (hs : Kept segmentPath s) (h : s.SegmentsRight)
    (hpaths : Function.Injective fun n => cStr (segmentPath n)) {n : ℕ}
    (hn : s.disk.opened ≤ n) (hcr : s.recorders.lookup channelId = some cr)
    (hnone : cr.state.currentSegmentId = -1) :
    (s.opening segmentPath n pts size channelId now cr).SegmentsRight := by
  refine (right_opening pts size now hs hpaths hn).mpr ?_
  refine (rightExcept_congr rfl rfl fun row hrow => ?_).mpr h
  rw [current_iff hcr, hnone]
  have := hs.positive _ (mem_files hrow)
  exact ⟨.inr, fun hor => hor.resolve_left (by omega)⟩

/-- **A rotation** finalises the segment before, with the bytes of the recording so far and those of
the frame that opens the next. -/
theorem rotates (hs : Kept segmentPath s) (h : s.SegmentsRight)
    (hpaths : Function.Injective fun n => cStr (segmentPath n)) {n : ℕ}
    (hn : s.disk.opened ≤ n) (hcr : s.recorders.lookup channelId = some cr)
    (hopen : cr.writer.isOpen = true) :
    Kept segmentPath ((s.updateSegment cr.state.currentSegmentId now
        (cr.writer.totalBytesWritten + size)).opening segmentPath n pts size channelId now cr) ∧
      (((s.updateSegment cr.state.currentSegmentId now
          (cr.writer.totalBytesWritten + size)).opening segmentPath n pts size channelId now
            cr).SegmentsRight ↔ size = 0 ∧ cr.writer.NoneElsewhere) := by
  obtain ⟨hrecording, hchannel, hclosed | ⟨-, -, -, hfile, haccounted⟩⟩ :=
    hs.recorders channelId cr hcr
  · exact absurd (hclosed.1.symm.trans hopen) Bool.false_ne_true
  have hupdated := hs.updateSegment hfile now (cr.writer.totalBytesWritten + size)
  have hcounted : cr.writer.Counted (s.updateSegment cr.state.currentSegmentId now
      (cr.writer.totalBytesWritten + size)).disk := by
    rw [disk_updateSegment]
    exact haccounted.toCounted
  have hn' : (s.updateSegment cr.state.currentSegmentId now
      (cr.writer.totalBytesWritten + size)).disk.opened ≤ n := by
    rwa [disk_updateSegment]
  refine ⟨hupdated.opening pts size now hpaths hn' hrecording hchannel hcounted, ?_⟩
  have hothers : (s.updateSegment cr.state.currentSegmentId now
      (cr.writer.totalBytesWritten + size)).Others channelId = s.Others channelId := by
    funext id
    simp only [Others, recorders_updateSegment]
  have hright : s.RightExcept fun id =>
      id = cr.state.currentSegmentId ∨ s.Others channelId id :=
    (rightExcept_congr rfl rfl fun row _ => (current_iff hcr).symm).mpr h
  rw [right_opening pts size now hupdated hpaths hn', hothers,
    right_updateSegment hfile (hs.not_others hfile rfl) hright, ← haccounted.ownsBytes_iff]
  -- the file has no more than the writer has counted
  have hle := haccounted.fileBytes_le
  simp only [RecordWriter.OwnsBytes]
  omega

/-- **One frame.**  Rows, files and recorders stay together, and the sizes right exactly when the
frame is such. -/
theorem step_writeFrame (hs : Kept segmentPath s) (h : s.SegmentsRight)
    (hpaths : Function.Injective fun n => cStr (segmentPath n))
    (hnonempty : ∀ n, segmentPath n ≠ "") (channelId : ℤ) (size : ℕ) (pts : ℤ)
    (isKeyframe : Bool) (now : ℤ) :
    Kept segmentPath (s.writeFrame segmentPath channelId size pts isKeyframe now).1 ∧
      ((s.writeFrame segmentPath channelId size pts isKeyframe now).1.SegmentsRight ↔
        s.Owns (.writeFrame channelId size pts isKeyframe now)) := by
  cases hcr : s.recorders.lookup channelId with
  | none => simpa [writeFrame, hcr, Owns] using ⟨hs, h⟩
  | some cr =>
      obtain ⟨hrecording, hchannel, hwhole⟩ := hs.recorders channelId cr hcr
      rw [owns_writeFrame hcr]
      rcases cr.writer.writeFrame_cases size pts isKeyframe s.disk with
        ⟨hclosed, hwriter⟩ | ⟨hopen, hfull, hwriter⟩ | ⟨hfull, n, hn, hwriter⟩
      · -- waiting for a keyframe
        rw [writeFrame_waits hcr hrecording hwriter]
        refine ⟨kept_waits hs hcr, iff_of_true (right_waits h hcr) fun hopen => ?_⟩
        exact absurd (hclosed.symm.trans hopen) Bool.false_ne_true
      · -- to the open segment
        rw [writeFrame_writes hcr hrecording hwriter]
        refine ⟨hs.write hcr hopen size, iff_of_true (right_write hs h hcr hopen size) ?_⟩
        exact fun _ hfull' => absurd (hfull.symm.trans hfull') Bool.false_ne_true
      · rcases hwhole with ⟨hisOpen, hnone, hempty, htotal, hwritten⟩ |
          ⟨hopen, hid, ⟨m, hm, hpath⟩, -, -⟩
        · -- the first segment
          rw [writeFrame_opens hcr hrecording hwriter (hempty ▸ hnonempty n), hempty,
            if_neg (by simp)]
          have hcounted : cr.writer.Counted s.disk :=
            ⟨by rw [htotal, hwritten]; rfl, by simp [hwritten]⟩
          refine ⟨hs.opening pts size now hpaths hn hrecording hchannel hcounted,
            iff_of_true (right_opening_first hs h hpaths hn hcr hnone) fun hopen => ?_⟩
          exact absurd (hisOpen.symm.trans hopen) Bool.false_ne_true
        · -- a rotation
          have hold : cr.writer.currentSegmentPath ≠ "" := hpath ▸ hnonempty m
          have hnew : segmentPath n ≠ cr.writer.currentSegmentPath := by
            rw [hpath]
            intro e
            have := hpaths (congrArg cStr e)
            omega
          rw [writeFrame_opens hcr hrecording hwriter hnew, if_pos ⟨hold, hid⟩]
          obtain ⟨hkept, hright⟩ := rotates hs h hpaths hn hcr hopen
          refine ⟨hkept, hright.trans ⟨fun howns _ _ => howns, fun howns => ?_⟩⟩
          exact howns hopen (hfull hopen)

end Frame

end Recorder

end LoongNvr.Storage
