import LoongNvr.Storage.IndexCalls
import LoongNvr.Storage.SegmentSizes

/-!
# Storage — IndexedFiles

Whether each file a recorder has written frames to is in its index.  The recorder registers a file
when a frame is written and the writer's path is not what it was before; if the first packet of a
new segment fails, the next one finds the path as it is.

* `Recording.Indexed`: each file with frames is registered, and finalised in time.
* `Recording.FirstSucceeds`: no packet is written to a segment whose first packet failed.
* `Recording.filesIndexed_iff`: the files are indexed all along a run exactly if its calls are such.
-/

namespace LoongNvr.Storage
open Support LoongNvr.Core
open LoongNvr.Rules (cStr)

variable {segmentPath : ℕ → String}

namespace Recording

/-- Each file with frames is registered once, and its row is finalised once as soon as the channel
has a frame in another file or is not recorded any more. -/
structure Indexed (s : Recording) : Prop where
  inserted : ∀ frame ∈ s.recorder.disk.frames, s.calls.countP (·.inserts frame.path) = 1
  once : ∀ frame ∈ s.recorder.disk.frames, ∀ id row, .insertSegment id row ∈ s.calls →
    cStr row.filePath = frame.path → s.calls.count (.updateSegmentEnd id) ≤ 1
  finalized : ∀ frame ∈ s.recorder.disk.frames, ∀ id row, .insertSegment id row ∈ s.calls →
    cStr row.filePath = frame.path →
    (s.recorder.recorders.lookup frame.channelId = none ∨
      LeftFile s.recorder.disk.frames frame.channelId frame.path) →
    s.calls.count (.updateSegmentEnd id) = 1

/-- A packet that is written to a segment opened before is not the first. -/
def FirstSucceeds (s : Recording) : RecorderOp × Outcome → Prop
  | (.writeFrame channelId _ pts isKeyframe _, o) =>
      ∀ cr ∈ s.recorder.recorders.lookup channelId, cr.writer.isOpen = true →
        cr.writer.full pts isKeyframe = false → o.writes = true →
        ∃ frame ∈ s.recorder.disk.frames, frame.path = cStr cr.writer.currentSegmentPath
  | _ => True

instance (s : Recording) : ∀ call, Decidable (s.FirstSucceeds call)
  | (.writeFrame channelId _ _ _ _, _) =>
      inferInstanceAs (Decidable (∀ cr ∈ s.recorder.recorders.lookup channelId, _ → _ → _ → _))
  | (.startRecording _ _ _, _) | (.stopRecording _ _, _) | (.stopAll _, _) | (.flush, _) =>
      .isTrue trivial

/-! ### The ledger -/

def slotOf (cr : ChannelRecorder) : Slot where
  path := cr.writer.currentSegmentPath
  isOpen := cr.writer.isOpen
  current := cr.state.currentSegmentId

def slots (recorders : AList (fun _ : ℤ => ChannelRecorder)) (channelId : ℤ) : Option Slot :=
  (recorders.lookup channelId).map slotOf

def ledger (s : Recording) : Ledger where
  opened := s.recorder.disk.opened
  frames := s.recorder.disk.frames
  lastId := s.recorder.index.segments.seq
  calls := s.calls
  slots := slots s.recorder.recorders

theorem slots_eq_update {recorders recorders' : AList fun _ : ℤ => ChannelRecorder}
    (channelId : ℤ)
    (hothers : ∀ c ≠ channelId, recorders'.lookup c = recorders.lookup c) :
    slots recorders' =
      Function.update (slots recorders) channelId ((recorders'.lookup channelId).map slotOf) := by
  funext c
  rw [Function.update_apply]
  split
  · rename_i e
    rw [slots, e]
  · rename_i hne
    rw [slots, slots, hothers c hne]

theorem slots_insert (recorders : AList (fun _ : ℤ => ChannelRecorder)) (channelId : ℤ)
    (cr : ChannelRecorder) :
    slots (recorders.insert channelId cr) =
      Function.update (slots recorders) channelId (some (slotOf cr)) := by
  rw [slots_eq_update channelId fun c hne => AList.lookup_insert_ne hne, AList.lookup_insert,
    Option.map_some]

theorem slots_erase (recorders : AList (fun _ : ℤ => ChannelRecorder)) (channelId : ℤ) :
    slots (recorders.erase channelId) = Function.update (slots recorders) channelId none := by
  rw [slots_eq_update channelId fun c hne => AList.lookup_erase_ne hne, AList.lookup_erase,
    Option.map_none]

theorem slots_empty : slots ∅ = fun _ => none := by
  funext c
  rw [slots, AList.lookup_empty]
  rfl

/-- The indexer has nothing to insert. -/
def OnlyUpdates (s : Recorder) : Prop :=
  ∀ op ∈ s.indexer.getD [], ∃ segmentId endTime fileSize,
    op = .updateSegment segmentId endTime fileSize

/-- What every recorder satisfies whose calls are such. -/
structure Sound (segmentPath : ℕ → String) (s : Recording) : Prop where
  tracked : Tracked segmentPath s.ledger
  recorders : ∀ channelId cr, s.recorder.recorders.lookup channelId = some cr →
    cr.state.isRecording = true ∧ cr.writer.channelId = channelId
  pending : OnlyUpdates s.recorder

variable {s : Recording} {channelId : ℤ} {cr : ChannelRecorder}

theorem slots_eq (h : s.recorder.recorders.lookup channelId = some cr) :
    s.ledger.slots channelId = some (slotOf cr) := by
  show (s.recorder.recorders.lookup channelId).map slotOf = _
  rw [h]
  rfl

/-- **Tracked files are indexed.** -/
theorem Sound.indexed (h : Sound segmentPath s) : s.Indexed where
  inserted := h.tracked.inserted
  once _ _ _ _ hrow _ := h.tracked.updates_le_one hrow
  finalized frame hframe id row hrow hpath hdone := by
    have hchannel := h.tracked.channel frame hframe id row hrow hpath
    refine h.tracked.updates_eq_one hrow ?_
    rw [hchannel, hpath]
    refine hdone.imp_left fun hnone => ?_
    show (s.recorder.recorders.lookup frame.channelId).map slotOf = none
    rw [hnone]
    rfl

/-! ### Finalising -/

@[simp] theorem recorders_finalizeSegment (cr : ChannelRecorder) (now : ℤ) (s : Recording) :
    (s.finalizeSegment cr now).recorder.recorders = s.recorder.recorders :=
  Recorder.recorders_finalizeSegment s.recorder cr now

theorem seq_finalizeSegment (cr : ChannelRecorder) (now : ℤ) (s : Recorder) :
    (s.finalizeSegment cr now).index.segments.seq = s.index.segments.seq := by
  rw [Recorder.finalizeSegment]
  split
  · rfl
  · exact Recorder.seq_updateSegment _ _ _ s

theorem onlyUpdates_finalizeSegment {s : Recorder} (h : OnlyUpdates s) (cr : ChannelRecorder)
    (now : ℤ) : OnlyUpdates (s.finalizeSegment cr now) := by
  rw [Recorder.finalizeSegment]
  split
  · exact h
  · intro op hop
    rcases Recorder.mem_indexer_updateSegment hop with hold | rfl
    · exact h op hold
    · exact ⟨_, _, _, rfl⟩

theorem ledger_finalizeSegment (cr : ChannelRecorder) (now : ℤ) (s : Recording) :
    (s.finalizeSegment cr now).ledger =
      { s.ledger with
        calls :=
          if cr.state.currentSegmentId < 0 then s.calls
          else s.calls ++ [.updateSegmentEnd cr.state.currentSegmentId] } := by
  have hdisk := Recorder.disk_finalizeSegment s.recorder cr now
  have hrecorders := Recorder.recorders_finalizeSegment s.recorder cr now
  have hseq := seq_finalizeSegment cr now s.recorder
  simp only [ledger, finalizeSegment, hdisk, hrecorders, hseq]

/-! ### Starting and stopping -/

theorem ledger_put (channelId : ℤ) (cr : ChannelRecorder) (s : Recording) :
    (s.put channelId cr).ledger = s.ledger.put channelId (some (slotOf cr)) := by
  show Ledger.mk _ _ _ _ (slots (s.recorder.recorders.insert channelId cr)) = _
  rw [slots_insert]
  rfl

theorem Sound.startRecording (h : Sound segmentPath s) (channelId : ℤ) (config : RecordConfig)
    (now : ℤ) : Sound segmentPath (s.startRecording channelId config now).1 := by
  cases hlookup : s.recorder.recorders.lookup channelId with
  | some cr =>
      have hsame : (s.startRecording channelId config now).1 = s := by
        have hrecording := (h.recorders channelId cr hlookup).1
        simp [Recording.startRecording, Recorder.startRecording, hlookup, hrecording]
      rwa [hsame]
  | none =>
      have hnew : (s.startRecording channelId config now).1 = s.put channelId
          { writer := { channelId := channelId, config := config }
            config := config
            state := { isRecording := true, segmentStartTimeMs := now } } := by
        simp [Recording.startRecording, Recorder.startRecording, hlookup, Recording.put]
      rw [hnew]
      refine ⟨?_, fun c cr hc => ?_, h.pending⟩
      · rw [ledger_put]
        have hslot : s.ledger.slots channelId = none := by
          show (s.recorder.recorders.lookup channelId).map slotOf = none
          rw [hlookup]
          rfl
        refine h.tracked.put_unheld ?_ ?_ ?_ ?_ ?_ ?_
        · rintro slot hmem
          rw [hslot] at hmem
          exact absurd hmem (by simp)
        · rintro _ ⟨⟩
          rfl
        · rintro _ ⟨⟩ hopen
          exact absurd hopen Bool.false_ne_true
        · rintro _ ⟨⟩ hne
          exact absurd rfl hne
        · rintro _ ⟨⟩ hopen
          exact absurd hopen Bool.false_ne_true
        · rintro _ ⟨⟩ hopen
          exact absurd hopen Bool.false_ne_true
      · rcases lookup_insert_cases hc with ⟨rfl, rfl⟩ | ⟨-, hold⟩
        · exact ⟨rfl, rfl⟩
        · exact h.recorders c cr hold

theorem Sound.stopRecording (h : Sound segmentPath s) (channelId now : ℤ) :
    Sound segmentPath (s.stopRecording channelId now).1 := by
  rw [Recording.stopRecording]
  cases hlookup : s.recorder.recorders.lookup channelId with
  | none => exact h
  | some cr =>
      have hrecording := (h.recorders channelId cr hlookup).1
      simp only [hrecording, Bool.not_true, Bool.false_eq_true, if_false]
      refine ⟨?_, fun c cr' hc => ?_, onlyUpdates_finalizeSegment h.pending cr now⟩
      · have htracked := h.tracked.finalizeHeld (slots_eq hlookup)
          fun other (hother : other ∈ none) => absurd hother (by simp)
        show Tracked segmentPath (Ledger.mk _ _ _ _ (slots (AList.erase channelId _)))
        rw [slots_erase]
        show Tracked segmentPath ((s.finalizeSegment cr now).ledger.put channelId none)
        rw [ledger_finalizeSegment]
        exact htracked
      · by_cases hne : c = channelId
        · subst hne
          rw [AList.lookup_erase] at hc
          exact absurd hc (by simp)
        · rw [AList.lookup_erase_ne hne, recorders_finalizeSegment] at hc
          exact h.recorders c cr' hc

/-- What `StopAll` does at one entry after the other, with the channels forgotten as it does. -/
theorem tracked_foldl (now : ℤ) (entries : List (Sigma fun _ : ℤ => ChannelRecorder))
    (hkeys : entries.NodupKeys)
    (hrecording : ∀ entry ∈ entries, entry.2.state.isRecording = true) (s : Recording)
    (slots : ℤ → Option Slot) (h : Tracked segmentPath { s.ledger with slots := slots })
    (hslots : ∀ c, slots c = (entries.dlookup c).map slotOf) (hpending : OnlyUpdates s.recorder) :
    let s' := entries.foldl
      (fun s entry => if entry.2.state.isRecording then s.finalizeSegment entry.2 now else s) s
    Tracked segmentPath { s'.ledger with slots := fun _ => none } ∧ OnlyUpdates s'.recorder := by
  induction entries generalizing s slots with
  | nil =>
      obtain rfl : slots = fun _ => none := funext hslots
      exact ⟨h, hpending⟩
  | cons entry entries ih =>
      obtain ⟨channelId, cr⟩ := entry
      obtain ⟨hhead, hkeys⟩ := List.nodupKeys_cons.mp hkeys
      obtain ⟨hfirst, hrecording⟩ := List.forall_mem_cons.mp hrecording
      rw [List.foldl_cons, if_pos hfirst]
      have hslot : slots channelId = some (slotOf cr) := by
        rw [hslots, List.dlookup_cons_eq]
        rfl
      refine ih hkeys hrecording _ (Function.update slots channelId none) ?_ (fun c => ?_)
        (onlyUpdates_finalizeSegment hpending cr now)
      · have htracked := h.finalizeHeld hslot fun other (hother : other ∈ none) =>
          absurd hother (by simp)
        rw [ledger_finalizeSegment]
        exact htracked
      · rw [Function.update_apply]
        split
        · rename_i heq
          rw [heq, List.dlookup_eq_none.mpr hhead]
          rfl
        · rename_i hne
          rw [hslots, List.dlookup_cons_ne _ _ hne]

theorem Sound.stopAll (h : Sound segmentPath s) (now : ℤ) :
    Sound segmentPath (s.stopAll now) := by
  obtain ⟨htracked, hpending⟩ := tracked_foldl now s.recorder.recorders.entries
    s.recorder.recorders.nodupKeys
    (fun entry hentry => (h.recorders entry.1 entry.2 (AList.mem_lookup_iff.mpr hentry)).1) s
    (slots s.recorder.recorders) h.tracked (fun _ => rfl) h.pending
  refine ⟨?_, fun c cr hc => absurd hc (by simp [Recording.stopAll]), hpending⟩
  show Tracked segmentPath (Ledger.mk _ _ _ _ (slots ∅))
  rw [slots_empty]
  exact htracked

theorem Sound.flush (h : Sound segmentPath s) :
    Sound segmentPath { s with recorder := s.recorder.flush } := by
  refine ⟨?_, h.recorders, fun op hop => ?_⟩
  · have hseq : s.recorder.flush.index.segments.seq = s.recorder.index.segments.seq :=
      Recorder.seq_foldl_apply _ h.pending
    have hledger : ledger { s with recorder := s.recorder.flush } = s.ledger := by
      rw [ledger, ledger, hseq]
      rfl
    rw [hledger]
    exact h.tracked
  · cases hindexer : s.recorder.indexer with
    | none => simp [Recorder.flush, hindexer] at hop
    | some pendingOps => simp [Recorder.flush, hindexer] at hop

/-! ### Frames -/

theorem Sound.replace {s' : Recording} {cr' : ChannelRecorder} (h : Sound segmentPath s)
    (hlookup : s.recorder.recorders.lookup channelId = some cr)
    (hstate : cr'.state.isRecording = cr.state.isRecording)
    (hwriter : cr'.writer.channelId = cr.writer.channelId)
    (hrecorders : s'.recorder.recorders = s.recorder.recorders.insert channelId cr')
    (htracked : Tracked segmentPath s'.ledger) (hpending : OnlyUpdates s'.recorder) :
    Sound segmentPath s' := by
  refine ⟨htracked, fun c other hc => ?_, hpending⟩
  rw [hrecorders] at hc
  rcases lookup_insert_cases hc with ⟨rfl, rfl⟩ | ⟨-, hold⟩
  · rw [hstate, hwriter]
    exact h.recorders c cr hlookup
  · exact h.recorders c other hold

theorem put_slotOf (hlookup : s.recorder.recorders.lookup channelId = some cr) :
    s.ledger.put channelId (some (slotOf cr)) = s.ledger := by
  rw [← slots_eq hlookup, Ledger.put, Function.update_eq_self]

/-- The path is what it was: no call to the index. -/
theorem noteFrame_same {oldPath : String} (hpath : cr.writer.currentSegmentPath = oldPath)
    (now : ℤ) (s : Recording) :
    s.noteFrame channelId now oldPath cr =
      s.put channelId
        { cr with state := { cr.state with totalFrames := cr.state.totalFrames + 1 } } := by
  rw [noteFrame, if_neg (not_not.mpr hpath)]

/-- Without a row, `FinalizeSegment` does nothing. -/
theorem finalizeSegment_of_unheld (h : cr.state.currentSegmentId < 0) (now : ℤ) (s : Recording) :
    s.finalizeSegment cr now = s := by
  rw [finalizeSegment, Recorder.finalizeSegment, if_pos h, if_pos h]

/-- The path is a new one: the row that is held gets its end, and the new segment its row. -/
theorem noteFrame_new {oldPath : String} (hpath : cr.writer.currentSegmentPath ≠ oldPath)
    (hheld : 0 ≤ cr.state.currentSegmentId → oldPath ≠ "") (now : ℤ) (s : Recording) :
    s.noteFrame channelId now oldPath cr =
      let row := Recorder.newSegment channelId now cr.writer.currentSegmentPath cr.config
      let noted := ((s.finalizeSegment cr now).insertSegment row).1
      noted.put channelId
        { cr with
          state :=
            { cr.state with
              currentSegmentId := s.recorder.index.segments.seq + 1
              segmentStartTimeMs := now
              totalFrames := cr.state.totalFrames + 1 } } := by
  have hfinalized : (if oldPath ≠ "" ∧ cr.state.currentSegmentId ≥ 0 then
      s.finalizeSegment cr now else s) = s.finalizeSegment cr now := by
    split
    · rfl
    · rename_i hnot
      have hnegative : cr.state.currentSegmentId < 0 :=
        Int.not_le.mp fun hle => hnot ⟨hheld hle, hle⟩
      rw [finalizeSegment_of_unheld hnegative]
  rw [noteFrame, if_pos hpath]
  simp only [hfinalized]
  rw [← seq_finalizeSegment cr now s.recorder]
  rfl

theorem recorders_noteFrame {oldPath : String} (hpath : cr.writer.currentSegmentPath ≠ oldPath)
    (hheld : 0 ≤ cr.state.currentSegmentId → oldPath ≠ "") (now : ℤ) (s : Recording) :
    (s.noteFrame channelId now oldPath cr).recorder.recorders =
      s.recorder.recorders.insert channelId
        { cr with
          state :=
            { cr.state with
              currentSegmentId := s.recorder.index.segments.seq + 1
              segmentStartTimeMs := now
              totalFrames := cr.state.totalFrames + 1 } } := by
  rw [noteFrame_new hpath hheld]
  show AList.insert channelId _ (s.finalizeSegment cr now).recorder.recorders = _
  rw [recorders_finalizeSegment]

theorem ledger_noteFrame {oldPath : String} (hpath : cr.writer.currentSegmentPath ≠ oldPath)
    (hheld : 0 ≤ cr.state.currentSegmentId → oldPath ≠ "") (now : ℤ) (s : Recording) :
    (s.noteFrame channelId now oldPath cr).ledger =
      { opened := s.recorder.disk.opened
        frames := s.recorder.disk.frames
        lastId := s.recorder.index.segments.seq + 1
        calls :=
          (if cr.state.currentSegmentId < 0 then s.calls
            else s.calls ++ [IndexCall.updateSegmentEnd cr.state.currentSegmentId]) ++
            [IndexCall.insertSegment (s.recorder.index.segments.seq + 1)
              (Recorder.newSegment channelId now cr.writer.currentSegmentPath cr.config)]
        slots := Function.update (slots s.recorder.recorders) channelId
          (some { slotOf cr with current := s.recorder.index.segments.seq + 1 }) } := by
  have hdisk := Recorder.disk_finalizeSegment s.recorder cr now
  have hrecorders := Recorder.recorders_finalizeSegment s.recorder cr now
  have hseq := seq_finalizeSegment cr now s.recorder
  rw [noteFrame_new hpath hheld, ledger_put]
  simp only [ledger, Ledger.put, insertSegment, RecordIndex.insertSegment, finalizeSegment, hdisk,
    hrecorders, hseq, Table.insert]
  rfl

/-- A recorder that is there is recording, and takes the frame. -/
theorem writeFrame_of_lookup (h : Sound segmentPath s)
    (hlookup : s.recorder.recorders.lookup channelId = some cr) (o : Outcome) (size : ℕ) (pts : ℤ)
    (isKeyframe : Bool) (now : ℤ) :
    (s.writeFrame segmentPath o channelId size pts isKeyframe now).1 =
      let result := cr.writer.tryWriteFrame segmentPath o size pts isKeyframe s.recorder.disk
      let written : ChannelRecorder := { cr with writer := result.1 }
      let s : Recording := { s with recorder := { s.recorder with disk := result.2.1 } }
      if result.2.2 then s.noteFrame channelId now cr.writer.currentSegmentPath written
      else s.put channelId written := by
  have hrecording := (h.recorders channelId cr hlookup).1
  simp only [writeFrame, hlookup, hrecording, Bool.not_true, Bool.false_eq_true, if_false]
  split
  · rfl
  · rfl

/-- Another recorder for the channel, and what was written. -/
theorem Sound.put {cr' : ChannelRecorder} {disk : Disk} (h : Sound segmentPath s)
    (hlookup : s.recorder.recorders.lookup channelId = some cr)
    (hstate : cr'.state.isRecording = cr.state.isRecording)
    (hwriter : cr'.writer.channelId = cr.writer.channelId)
    (htracked : Tracked segmentPath
      ({ s.ledger with opened := disk.opened, frames := disk.frames }.put channelId
        (some (slotOf cr')))) :
    Sound segmentPath
      (Recording.put channelId cr' { s with recorder := { s.recorder with disk := disk } }) := by
  refine h.replace hlookup hstate hwriter rfl ?_ h.pending
  rw [ledger_put]
  exact htracked

/-- The frame that no segment is opened for. -/
theorem Sound.noteSame {cr' : ChannelRecorder} {disk : Disk} (h : Sound segmentPath s)
    (hlookup : s.recorder.recorders.lookup channelId = some cr)
    (hpath : cr'.writer.currentSegmentPath = cr.writer.currentSegmentPath)
    (hstate : cr'.state = cr.state) (hwriter : cr'.writer.channelId = cr.writer.channelId)
    (htracked : Tracked segmentPath
      ({ s.ledger with opened := disk.opened, frames := disk.frames }.put channelId
        (some (slotOf cr')))) (now : ℤ) :
    Sound segmentPath
      (Recording.noteFrame channelId now cr.writer.currentSegmentPath cr'
        { s with recorder := { s.recorder with disk := disk } }) := by
  rw [noteFrame_same hpath]
  refine h.put hlookup ?_ hwriter htracked
  show cr'.state.isRecording = cr.state.isRecording
  rw [hstate]

/-- The frame that a segment is opened for. -/
theorem Sound.noteNew {cr' : ChannelRecorder}
    (hpaths : Function.Injective fun n => cStr (segmentPath n))
    (hnonempty : ∀ n, segmentPath n ≠ "") (h : Sound segmentPath s)
    (hlookup : s.recorder.recorders.lookup channelId = some cr) {n : ℕ}
    (hn : s.recorder.disk.opened ≤ n) {frame : WrittenFrame}
    (hslot' : slotOf cr' = { slotOf cr with path := segmentPath n, isOpen := true })
    (hstate : cr'.state = cr.state) (hwriter : cr'.writer.channelId = cr.writer.channelId)
    (hframe : frame.path = cStr (segmentPath n)) (hchannel : frame.channelId = channelId)
    (now : ℤ) :
    Sound segmentPath
      (Recording.noteFrame channelId now cr.writer.currentSegmentPath cr'
        { s with
          recorder :=
            { s.recorder with
              disk := { opened := n + 1, frames := s.recorder.disk.frames ++ [frame] } } }) := by
  have hslot := slots_eq hlookup
  have hs := h.tracked.slots _ _ hslot
  have hpath : cr'.writer.currentSegmentPath = segmentPath n := congrArg Slot.path hslot'
  -- the path the writer had is empty or that of an earlier segment
  have hnew : cr'.writer.currentSegmentPath ≠ cr.writer.currentSegmentPath := by
    rw [hpath]
    intro heq
    obtain ⟨m, hm, hold⟩ := hs.opened fun hempty => hnonempty n (heq.trans hempty)
    have hnum : n = m := hpaths (congrArg cStr (heq.trans hold))
    have hm : m < s.recorder.disk.opened := hm
    omega
  have hheld : 0 ≤ cr'.state.currentSegmentId → cr.writer.currentSegmentPath ≠ "" := by
    rw [hstate]
    exact fun hle => hs.named (.inr fun hnone : cr.state.currentSegmentId = -1 => by omega)
  refine h.replace hlookup ?_ ?_ (recorders_noteFrame hnew hheld now _) ?_ ?_
  · show cr'.state.isRecording = cr.state.isRecording
    rw [hstate]
  · exact hwriter
  · rw [ledger_noteFrame hnew hheld, hslot', hstate]
    exact h.tracked.register hpaths hnonempty hslot hn hframe hchannel (congrArg cStr hpath) rfl
  · rw [noteFrame_new hnew hheld]
    have hpending : OnlyUpdates
        { s.recorder with
          disk := { opened := n + 1, frames := s.recorder.disk.frames ++ [frame] } } := h.pending
    exact onlyUpdates_finalizeSegment hpending cr' now

theorem Sound.writeFrame (hpaths : Function.Injective fun n => cStr (segmentPath n))
    (hnonempty : ∀ n, segmentPath n ≠ "") (h : Sound segmentPath s) (o : Outcome) (channelId : ℤ)
    (size : ℕ) (pts : ℤ) (isKeyframe : Bool) (now : ℤ)
    (hfirst : s.FirstSucceeds (.writeFrame channelId size pts isKeyframe now, o)) :
    Sound segmentPath (s.writeFrame segmentPath o channelId size pts isKeyframe now).1 := by
  cases hlookup : s.recorder.recorders.lookup channelId with
  | none =>
      rw [Recording.writeFrame, hlookup]
      exact h
  | some cr =>
      have hslot := slots_eq hlookup
      have hchannel := (h.recorders channelId cr hlookup).2
      have hresult := @RecordWriter.tryWriteFrame_result segmentPath o size pts isKeyframe cr.writer
        s.recorder.disk
      rw [writeFrame_of_lookup h hlookup]
      generalize cr.writer.tryWriteFrame segmentPath o size pts isKeyframe s.recorder.disk = result
        at hresult
      have hsame : Tracked segmentPath (s.ledger.put channelId (some (slotOf cr))) := by
        rw [put_slotOf hlookup]
        exact h.tracked
      cases hresult with
      | kept ok failed =>
          cases ok with
          | true =>
              exact h.noteSame hlookup rfl rfl rfl hsame now
          | false => exact h.put hlookup rfl rfl hsame
      | moved n isOpen start later full =>
          exact h.put hlookup rfl rfl (h.tracked.move hpaths hnonempty hslot later isOpen)
      | wrote hopen room writes =>
          have hframes := hfirst cr hlookup hopen room writes
          have htracked := h.tracked.write hpaths hslot hopen hframes
            (show (WrittenFrame.mk (cStr cr.writer.currentSegmentPath) cr.writer.channelId
              size).path = _ from rfl) hchannel
          have hkept : (s.ledger.put channelId (some (slotOf cr))).slots = s.ledger.slots := by
            rw [put_slotOf hlookup]
          refine h.noteSame hlookup ?_ ?_ ?_ ?_ now
          · rfl
          · rfl
          · rfl
          · show Tracked segmentPath (Ledger.mk _ _ _ _
              (s.ledger.put channelId (some (slotOf cr))).slots)
            rw [hkept]
            exact htracked
      | began n w' disk' later full writer opened =>
          subst writer opened
          refine h.noteNew hpaths hnonempty hlookup later ?_ ?_ ?_ ?_ ?_ now
          · rfl
          · rfl
          · rfl
          · rfl
          · exact hchannel

/-! ### Runs -/

/-- **A packet after a first one that failed** leaves a file with a frame and without a row. -/
theorem not_indexed_writeFrame (h : Sound segmentPath s) {o : Outcome} {size : ℕ} {pts : ℤ}
    {isKeyframe : Bool} {now : ℤ}
    (hlate : ¬ s.FirstSucceeds (.writeFrame channelId size pts isKeyframe now, o)) :
    ¬ (s.writeFrame segmentPath o channelId size pts isKeyframe now).1.Indexed := by
  simp only [FirstSucceeds, not_forall] at hlate
  obtain ⟨cr, hlookup, hopen, hroom, hwrites, hfresh⟩ := hlate
  have hwritten : cr.writer.tryWriteFrame segmentPath o size pts isKeyframe s.recorder.disk =
      ((cr.writer.writePacket size s.recorder.disk).1,
        (cr.writer.writePacket size s.recorder.disk).2, true) := by
    simp [RecordWriter.tryWriteFrame, RecordWriter.tryPrepare, hopen, hroom, hwrites]
  intro hindexed
  rw [writeFrame_of_lookup h hlookup, hwritten] at hindexed
  have hpath : ({ cr with writer := (cr.writer.writePacket size s.recorder.disk).1 } :
      ChannelRecorder).writer.currentSegmentPath = cr.writer.currentSegmentPath := rfl
  simp only [if_true] at hindexed
  rw [noteFrame_same hpath] at hindexed
  -- the call is to say nothing to the index
  have hinserted := hindexed.inserted
    { path := cStr cr.writer.currentSegmentPath, channelId := cr.writer.channelId, size := size }
    (by simp [Recording.put, RecordWriter.writePacket])
  obtain ⟨call, hcall, hinserts⟩ := List.countP_pos_iff.mp (hinserted ▸ Nat.one_pos)
  cases call with
  | updateSegmentEnd id => exact absurd hinserts Bool.false_ne_true
  | insertSegment id row =>
      obtain ⟨frame, hframe, hpath⟩ := h.tracked.written id row hcall
      exact hfresh ⟨frame, hframe, hpath.trans (of_decide_eq_true hinserts)⟩

theorem Sound.step (hpaths : Function.Injective fun n => cStr (segmentPath n))
    (hnonempty : ∀ n, segmentPath n ≠ "") (h : Sound segmentPath s) (call : RecorderOp × Outcome)
    (hfirst : s.FirstSucceeds call) : Sound segmentPath (s.step segmentPath call) := by
  obtain ⟨op, o⟩ := call
  cases op with
  | startRecording channelId config now => exact h.startRecording channelId config now
  | writeFrame channelId size pts isKeyframe now =>
      exact h.writeFrame hpaths hnonempty o channelId size pts isKeyframe now hfirst
  | stopRecording channelId now => exact h.stopRecording channelId now
  | stopAll now => exact h.stopAll now
  | flush => exact h.flush

theorem firstSucceeds_of_indexed (h : Sound segmentPath s) (call : RecorderOp × Outcome)
    (hindexed : (s.step segmentPath call).Indexed) : s.FirstSucceeds call := by
  obtain ⟨op, o⟩ := call
  cases op with
  | writeFrame channelId size pts isKeyframe now =>
      by_contra hlate
      exact not_indexed_writeFrame h hlate hindexed
  | _ => trivial

/-- A recorder that has recorded nothing, with or without an indexer. -/
def start (indexed : Bool) : Recording where
  recorder := Recorder.start indexed

theorem sound_start (segmentPath : ℕ → String) (indexed : Bool) :
    Sound segmentPath (start indexed) := by
  have hledger : (start indexed).ledger =
      { opened := 0, frames := [], lastId := 0, calls := [], slots := fun _ => none } := by
    rw [← slots_empty]
    cases indexed <;> rfl
  refine ⟨?_, fun c cr hc => absurd hc (by simp [start, Recorder.start]), fun op hop => ?_⟩
  · rw [hledger]
    exact tracked_empty segmentPath 0 le_rfl
  · cases indexed <;> exact absurd hop List.not_mem_nil

/-- **The files are indexed** all along a run exactly if no packet is written to a segment that an
earlier call has opened and that has no frame. -/
theorem filesIndexed_iff (segmentPath : ℕ → String)
    (hpaths : Function.Injective fun n => cStr (segmentPath n))
    (hnonempty : ∀ n, segmentPath n ≠ "") (indexed : Bool) (calls : List (RecorderOp × Outcome)) :
    Along (step segmentPath) Indexed (start indexed) calls ↔
      EveryStep (step segmentPath) FirstSucceeds (start indexed) calls :=
  along_iff_of_invariant (fun _ => Sound.indexed) (fun _ call h => h.step hpaths hnonempty call)
    (fun _ call h => firstSucceeds_of_indexed h call) (sound_start segmentPath indexed)

/-- The first packet of a segment fails, and the next one is written. -/
def firstFails : List (RecorderOp × Outcome) :=
  [(.startRecording 1 {} 0, {}), (.writeFrame 1 100 0 true 0, { writes := false }),
    (.writeFrame 1 50 40000 false 40, {})]

/-- The segment has a frame and no row. -/
theorem indexed_refuted :
    ¬ Along (step Recorder.zerosPath) Indexed (start false) firstFails := by
  intro h
  have hinserted := h.last.inserted
    { path := cStr (Recorder.zerosPath 0), channelId := 1, size := 50 } (by decide +kernel)
  exact absurd hinserted (by decide +kernel)

/-- A segment that cannot be opened, one that rotates, and a packet that fails later. -/
theorem indexed_failures : Along (step Recorder.zerosPath) Indexed (start true)
    [(.startRecording 1 { segmentDurationSec := 1 } 0, {}),
      (.writeFrame 1 100 0 true 0, { opens := false }), (.writeFrame 1 100 40000 true 40, {}),
      (.writeFrame 1 50 80000 false 80, { writes := false }),
      (.writeFrame 1 60 2040000 true 2040, {}), (.stopRecording 1 2080, {})] :=
  (filesIndexed_iff Recorder.zerosPath Recorder.zerosPath_injective Recorder.zerosPath_ne_empty true
    _).mpr (by decide +kernel)

end Recording

end LoongNvr.Storage
