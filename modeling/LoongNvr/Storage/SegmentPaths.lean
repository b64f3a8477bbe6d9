import LoongNvr.Storage.WriteFailures
import LoongNvr.Support.Decimal
import LoongNvr.Support.Runs

/-!
# Storage — SegmentPaths

The names of the segment files.  When a writer opens a segment is decided by the timestamps of the
stream, what the segment is called by the wall clock, in local time and cut off to seconds.  The
clock, in nanoseconds, at the `n`-th opening and the local time of a second are parameters.

* `generateSegmentPath_inj`: a path tells the base path, the channel and the local time.
* `RecordWriter.openings`: how many segments a frame opens.
* `SegmentWriters.pathsOpened_run`: every path a writer has is one of those generated.
* `SegmentWriters.distinct_iff`: the paths of a run are distinct exactly if no two segments of a
  channel are opened under one base path at the same local time.
-/

namespace LoongNvr.Storage
open Support LoongNvr.Core

/-! ### Paths -/

/-- `std::tm`, as `localtime_r` fills it. -/
structure Tm where
  year : ℤ
  mon : Fin 12
  mday : Fin 32
  hour : Fin 24
  min : Fin 60
  sec : Fin 61
  deriving DecidableEq, Repr

def generateSegmentPath (basePath : String) (channelId : ℤ) (tm : Tm) : String :=
  String.ofList
    (basePath.toList ++ "/ch".toList ++ padded 2 channelId ++ "/seg_".toList ++
      padded 4 (tm.year + 1900) ++ padded 2 ((tm.mon : ℕ) + 1 : ℕ) ++ padded 2 (tm.mday : ℕ) ++
      "_".toList ++ padded 2 (tm.hour : ℕ) ++ padded 2 (tm.min : ℕ) ++ padded 2 (tm.sec : ℕ) ++
      ".mp4".toList)

/-- The part of a path behind the year. -/
def pathTail (tm : Tm) : List Char :=
  padded 2 ((tm.mon : ℕ) + 1 : ℕ) ++ (padded 2 (tm.mday : ℕ) ++ ('_' :: (padded 2 (tm.hour : ℕ) ++
    (padded 2 (tm.min : ℕ) ++ (padded 2 (tm.sec : ℕ) ++ ".mp4".toList)))))

theorem length_two {n : ℕ} (h : n < 100) : (padded 2 n).length = 2 := length_padded (by decide) h

theorem length_pathTail (tm : Tm) : (pathTail tm).length = 15 := by
  have hmon : (tm.mon : ℕ) + 1 < 100 := by omega
  simp only [pathTail, List.length_append, List.length_cons, length_two hmon,
    length_two (show (tm.mday : ℕ) < 100 by omega), length_two (show (tm.hour : ℕ) < 100 by omega),
    length_two (show (tm.min : ℕ) < 100 by omega), length_two (show (tm.sec : ℕ) < 100 by omega)]
  rfl

theorem padded_two_inj {m n : ℕ} (hm : m < 100) (hn : n < 100) {rest rest' : List Char}
    (h : padded 2 m ++ rest = padded 2 n ++ rest') : m = n ∧ rest = rest' := by
  obtain ⟨hhead, hrest⟩ := List.append_inj h ((length_two hm).trans (length_two hn).symm)
  exact ⟨Int.ofNat_inj.mp (padded_injective 2 hhead), hrest⟩

/-- The rest of a local time can be read back. -/
theorem pathTail_inj {tm tm' : Tm} (h : pathTail tm = pathTail tm') :
    tm.mon = tm'.mon ∧ tm.mday = tm'.mday ∧ tm.hour = tm'.hour ∧ tm.min = tm'.min ∧
      tm.sec = tm'.sec := by
  obtain ⟨hmon, h⟩ := padded_two_inj (by omega) (by omega) h
  obtain ⟨hmday, h⟩ := padded_two_inj (by omega) (by omega) h
  obtain ⟨hhour, h⟩ := padded_two_inj (by omega) (by omega) (List.cons.inj h).2
  obtain ⟨hmin, h⟩ := padded_two_inj (by omega) (by omega) h
  obtain ⟨hsec, -⟩ := padded_two_inj (by omega) (by omega) h
  exact ⟨Fin.ext (Nat.succ.inj hmon), Fin.ext hmday, Fin.ext hhour, Fin.ext hmin, Fin.ext hsec⟩

/-- **A path tells** its base path, its channel and its local time. -/
theorem generateSegmentPath_inj {basePath basePath' : String} {channelId channelId' : ℤ}
    {tm tm' : Tm}
    (h : generateSegmentPath basePath channelId tm =
      generateSegmentPath basePath' channelId' tm') :
    basePath = basePath' ∧ channelId = channelId' ∧ tm = tm' := by
  -- up to the base path's end, the channel, the year, and what has a fixed length
  have hsplit : ∀ (basePath : String) (channelId : ℤ) (tm : Tm),
      (generateSegmentPath basePath channelId tm).toList =
        ((basePath.toList ++ ['/', 'c']) ++ 'h' :: padded 2 channelId ++ ['/', 's', 'e', 'g']) ++
          '_' :: padded 4 (tm.year + 1900) ++ pathTail tm := by
    intro basePath channelId tm
    have hch : "/ch".toList = ['/', 'c', 'h'] := rfl
    have hseg : "/seg_".toList = ['/', 's', 'e', 'g', '_'] := rfl
    have hline : "_".toList = ['_'] := rfl
    show (String.ofList _).toList = _
    simp only [String.toList_ofList, pathTail, hch, hseg, hline, List.append_assoc,
      List.cons_append, List.nil_append]
  have hlist := congrArg String.toList h
  rw [hsplit, hsplit] at hlist
  obtain ⟨hlist, htail⟩ := List.append_inj' hlist
    ((length_pathTail tm).trans (length_pathTail tm').symm)
  obtain ⟨hlist, hyear⟩ := append_cons_inj hlist (not_mem_padded rfl (by decide))
    (not_mem_padded rfl (by decide))
  obtain ⟨hbase, hchannel⟩ := append_cons_inj (List.append_cancel_right hlist)
    (not_mem_padded rfl (by decide)) (not_mem_padded rfl (by decide))
  refine ⟨String.toList_inj.mp (List.append_cancel_right hbase), padded_injective 2 hchannel, ?_⟩
  obtain ⟨hmon, hmday, hhour, hmin, hsec⟩ := pathTail_inj htail
  have hyear : tm.year = tm'.year := add_right_cancel (padded_injective 4 hyear)
  cases tm
  cases tm'
  simp_all

/-! ### Writers -/

namespace RecordWriter

/-- How often `WriteFrame` opens a segment: for the first keyframe, when the open one is full, and
twice when the first one is full at once. -/
def openings (o : Outcome) (pts : ℤ) (isKeyframe : Bool) (w : RecordWriter) : ℕ :=
  if w.isOpen then if w.full pts isKeyframe then 1 else 0
  else if !isKeyframe then 0
  else if o.opens && { w with segmentStartPts := pts }.full pts isKeyframe then 2
  else 1

theorem tryWriteFrame_opened (segmentPath : ℕ → String) (o : Outcome) (size : ℕ) (pts : ℤ)
    (isKeyframe : Bool) (w : RecordWriter) (disk : Disk) :
    (w.tryWriteFrame segmentPath o size pts isKeyframe disk).2.1.opened =
      disk.opened + w.openings o pts isKeyframe := by
  obtain ⟨opens, reopens, writes⟩ := o
  cases hopen : w.isOpen with
  | true =>
      simp only [tryWriteFrame, openings, tryPrepare, hopen, if_true, Bool.not_true, Bool.false_and,
        Bool.false_eq_true, if_false]
      cases hfull : w.full pts isKeyframe with
      | true => cases reopens <;> cases writes <;> rfl
      | false => cases writes <;> rfl
  | false =>
      cases isKeyframe with
      | false => simp [tryWriteFrame, openings, hopen]
      | true =>
          -- what is full does not depend on the path
          have hpath : ({ w with segmentStartPts := pts } : RecordWriter).full pts true =
              (w.tryOpen segmentPath true pts disk).1.full pts true := rfl
          rw [openings, if_neg (by rw [hopen]; exact Bool.false_ne_true), if_neg (by decide), hpath]
          cases opens with
          | false => simp [tryWriteFrame, tryPrepare, tryOpen, hopen]
          | true =>
              cases hfull : (w.tryOpen segmentPath true pts disk).1.full pts true with
              | true =>
                  simp only [tryWriteFrame, tryPrepare, hopen, Bool.false_eq_true, if_false,
                    Bool.not_true, Bool.and_false, tryOpen, if_true] at hfull ⊢
                  rw [if_pos hfull]
                  cases reopens <;> cases writes <;> rfl
              | false =>
                  simp only [tryWriteFrame, tryPrepare, hopen, Bool.false_eq_true, if_false,
                    Bool.not_true, Bool.and_false, tryOpen, if_true] at hfull ⊢
                  rw [if_neg (by rw [hfull]; exact Bool.false_ne_true)]
                  cases writes <;> rfl

end RecordWriter

/-- A segment that was opened, as the `number`-th of all. -/
structure Opening where
  channelId : ℤ
  basePath : String
  number : ℕ
  deriving DecidableEq, Repr

/-- The writers of the channels that are recording, each with its base path, and the segments opened
so far. -/
structure SegmentWriters where
  writers : AList (fun _ : ℤ => String × RecordWriter) := ∅
  disk : Disk := {}
  openings : List Opening := []

namespace SegmentWriters

/-- `system_clock::to_time_t` of a time in nanoseconds. -/
def toTimeT (ns : ℤ) : ℤ := ns.tdiv 1000000000

variable (clock : ℕ → ℤ) (localtime : ℤ → Tm)

def localTime (n : ℕ) : Tm := localtime (toTimeT (clock n))

/-- The path an opening generates. -/
def path (opening : Opening) : String :=
  generateSegmentPath opening.basePath opening.channelId (localTime clock localtime opening.number)

/-- The segments a channel opens between two states of the disk. -/
def opened (channelId : ℤ) (basePath : String) (first count : ℕ) : List Opening :=
  (List.range' first count).map fun n => ⟨channelId, basePath, n⟩

inductive Action
  | startRecording (channelId : ℤ) (basePath : String) (config : RecordConfig)
  | stopRecording (channelId : ℤ)
  | writeFrame (channelId : ℤ) (size : ℕ) (pts : ℤ) (isKeyframe : Bool) (o : Outcome)
  | startNewSegment (channelId : ℤ) (ok : Bool)

/-- A channel's writer after a call, and what the call has opened. -/
def put (channelId : ℤ) (basePath : String) (writer : RecordWriter) (disk : Disk)
    (s : SegmentWriters) : SegmentWriters where
  writers := s.writers.insert channelId (basePath, writer)
  disk := disk
  openings :=
    s.openings ++ opened channelId basePath s.disk.opened (disk.opened - s.disk.opened)

def step (s : SegmentWriters) : Action → SegmentWriters
  | .startRecording channelId basePath config =>
      match s.writers.lookup channelId with
      | some _ => s
      | none => s.put channelId basePath { channelId := channelId, config := config } s.disk
  | .stopRecording channelId => { s with writers := s.writers.erase channelId }
  | .writeFrame channelId size pts isKeyframe o =>
      match s.writers.lookup channelId with
      | none => s
      | some (basePath, writer) =>
          let segmentPath n := path clock localtime ⟨channelId, basePath, n⟩
          let (writer, disk, _) := writer.tryWriteFrame segmentPath o size pts isKeyframe s.disk
          s.put channelId basePath writer disk
  | .startNewSegment channelId ok =>
      match s.writers.lookup channelId with
      | none => s
      | some (basePath, writer) =>
          let segmentPath n := path clock localtime ⟨channelId, basePath, n⟩
          let (writer, disk) := writer.startNewSegment segmentPath ok s.disk
          s.put channelId basePath writer disk

/-- No path was generated twice. -/
def Distinct (s : SegmentWriters) : Prop := (s.openings.map (path clock localtime)).Nodup

/-- The segments a step opens. -/
def opens (s : SegmentWriters) : Action → List Opening
  | .writeFrame channelId _ pts isKeyframe o =>
      match s.writers.lookup channelId with
      | none => []
      | some (basePath, writer) =>
          opened channelId basePath s.disk.opened (writer.openings o pts isKeyframe)
  | .startNewSegment channelId _ =>
      match s.writers.lookup channelId with
      | none => []
      | some (basePath, _) => opened channelId basePath s.disk.opened 1
  | .startRecording _ _ _ | .stopRecording _ => []

/-- The local times of two segments of a channel, under one base path, are told apart. -/
def Apart (a b : Opening) : Prop :=
  a.channelId = b.channelId → a.basePath = b.basePath →
    localTime clock localtime a.number ≠ localTime clock localtime b.number

instance (a b : Opening) : Decidable (Apart clock localtime a b) :=
  inferInstanceAs (Decidable (_ → _ → _))

/-- What a step opens is apart from what was opened before, and from each other. -/
def OpensApart (s : SegmentWriters) (a : Action) : Prop :=
  (s.opens a).Pairwise (Apart clock localtime) ∧
    ∀ before ∈ s.openings, ∀ new ∈ s.opens a, Apart clock localtime before new

instance (s : SegmentWriters) (a : Action) : Decidable (OpensApart clock localtime s a) :=
  inferInstanceAs (Decidable (_ ∧ _))

variable {clock localtime}

theorem path_ne_iff {a b : Opening} :
    path clock localtime a ≠ path clock localtime b ↔ Apart clock localtime a b := by
  constructor
  · rintro hne hchannel hbase htime
    refine hne ?_
    rw [path, path, hchannel, hbase, htime]
  · rintro hapart heq
    obtain ⟨hbase, hchannel, htime⟩ := generateSegmentPath_inj heq
    exact hapart hchannel hbase htime

theorem openings_step (s : SegmentWriters) (a : Action) :
    (step clock localtime s a).openings = s.openings ++ s.opens a := by
  cases a with
  | startRecording channelId basePath config =>
      simp only [step, opens]
      split
      · exact (List.append_nil _).symm
      · simp [put, opened]
  | stopRecording channelId => exact (List.append_nil _).symm
  | writeFrame channelId size pts isKeyframe o =>
      simp only [step, opens]
      split
      · exact (List.append_nil _).symm
      · simp only [put, RecordWriter.tryWriteFrame_opened, Nat.add_sub_cancel_left]
  | startNewSegment channelId ok =>
      simp only [step, opens]
      split
      · exact (List.append_nil _).symm
      · simp only [put, RecordWriter.startNewSegment, RecordWriter.tryOpen,
          Nat.add_sub_cancel_left]

theorem distinct_step_iff {s : SegmentWriters} (h : Distinct clock localtime s) (a : Action) :
    Distinct clock localtime (step clock localtime s a) ↔ OpensApart clock localtime s a := by
  have hbefore : (s.openings.map (path clock localtime)).Nodup := h
  rw [Distinct, openings_step, List.map_append, List.nodup_append, and_iff_right hbefore,
    OpensApart]
  refine and_congr ?_ ?_
  · rw [List.Nodup, List.pairwise_map]
    exact List.Pairwise.iff fun _ _ => path_ne_iff
  · simp only [List.forall_mem_map, path_ne_iff]

/-- A writer that is there has opened nothing, or the segment its path is of. -/
def PathsOpened (clock : ℕ → ℤ) (localtime : ℤ → Tm) (s : SegmentWriters) : Prop :=
  ∀ channelId basePath writer, s.writers.lookup channelId = some (basePath, writer) →
    writer.currentSegmentPath = "" ∨
      ∃ n, ⟨channelId, basePath, n⟩ ∈ s.openings ∧
        writer.currentSegmentPath = path clock localtime ⟨channelId, basePath, n⟩

theorem pathsOpened_put {s : SegmentWriters} (h : PathsOpened clock localtime s) {channelId : ℤ}
    {basePath : String} {writer : RecordWriter} {disk : Disk}
    (hpath : writer.currentSegmentPath = "" ∨
      (∃ n, ⟨channelId, basePath, n⟩ ∈ s.openings ∧
        writer.currentSegmentPath = path clock localtime ⟨channelId, basePath, n⟩) ∨
      ∃ n, s.disk.opened ≤ n ∧ n < disk.opened ∧
        writer.currentSegmentPath = path clock localtime ⟨channelId, basePath, n⟩) :
    PathsOpened clock localtime (s.put channelId basePath writer disk) := by
  intro c base w hlookup
  rcases lookup_insert_cases hlookup with ⟨rfl, hsame⟩ | ⟨-, hold⟩
  · obtain ⟨rfl, rfl⟩ := Prod.mk.inj hsame
    rcases hpath with hempty | ⟨n, hn, hpath⟩ | ⟨n, hfirst, hlast, hpath⟩
    · exact .inl hempty
    · exact .inr ⟨n, List.mem_append_left _ hn, hpath⟩
    · refine .inr ⟨n, List.mem_append_right _ (List.mem_map_of_mem ?_), hpath⟩
      rw [List.mem_range'_1]
      omega
  · rcases h c base w hold with hempty | ⟨n, hn, hpath⟩
    · exact .inl hempty
    · exact .inr ⟨n, List.mem_append_left _ hn, hpath⟩

/-- **Every path in use** is among those generated. -/
theorem pathsOpened_step {s : SegmentWriters} (h : PathsOpened clock localtime s) (a : Action) :
    PathsOpened clock localtime (step clock localtime s a) := by
  cases a with
  | startRecording channelId basePath config =>
      simp only [step]
      split
      · exact h
      · exact pathsOpened_put h (.inl rfl)
  | stopRecording channelId =>
      intro c base w hlookup
      by_cases hne : c = channelId
      · subst hne
        rw [step, AList.lookup_erase] at hlookup
        exact absurd hlookup (by simp)
      · rw [step, AList.lookup_erase_ne hne] at hlookup
        exact h c base w hlookup
  | writeFrame channelId size pts isKeyframe o =>
      simp only [step]
      split
      · exact h
      · rename_i basePath writer hlookup
        have hresult := @RecordWriter.tryWriteFrame_result
          (fun n => path clock localtime ⟨channelId, basePath, n⟩) o size pts isKeyframe writer
          s.disk
        refine pathsOpened_put h ?_
        generalize writer.tryWriteFrame _ o size pts isKeyframe s.disk = result at hresult
        cases hresult with
        | kept ok failed => exact (h channelId basePath writer hlookup).imp_right .inl
        | moved n isOpen start later full =>
            exact .inr (.inr ⟨n, later, Nat.lt_succ_self n, rfl⟩)
        | wrote isOpen room writes =>
            exact (h channelId basePath writer hlookup).imp_right .inl
        | began n w' disk' later full writer opened =>
            subst writer opened
            exact .inr (.inr ⟨n, later, Nat.lt_succ_self n, rfl⟩)
  | startNewSegment channelId ok =>
      simp only [step]
      split
      · exact h
      · exact pathsOpened_put h (.inr (.inr ⟨s.disk.opened, le_rfl, Nat.lt_succ_self _, rfl⟩))

/-- So the openings of a run are all that its writers open. -/
theorem pathsOpened_run (clock : ℕ → ℤ) (localtime : ℤ → Tm) (actions : List Action) :
    Along (step clock localtime) (PathsOpened clock localtime) {} actions := by
  refine along_of_step (fun _ a h => pathsOpened_step h a) actions ?_
  intro channelId basePath writer hlookup
  exact absurd hlookup (by simp)

/-- **The paths are distinct** all along a run exactly if each segment is opened at another local
time than the segments opened before for its channel under its base path. -/
theorem distinct_iff (clock : ℕ → ℤ) (localtime : ℤ → Tm) (actions : List Action) :
    Along (step clock localtime) (Distinct clock localtime) {} actions ↔
      EveryStep (step clock localtime) (OpensApart clock localtime) {} actions :=
  along_iff_everyStep (fun _ a h => distinct_step_iff h a) List.nodup_nil

/-- Two segments of a channel within a second. -/
def twoAtOnce : List Action :=
  [.startRecording 1 "/recordings" {}, .writeFrame 1 100 0 true {}, .startNewSegment 1 true]

/-- Both have one path, though the clock does not go back. -/
theorem distinct_refuted :
    ¬ ∀ (clock : ℕ → ℤ) (localtime : ℤ → Tm), (∀ n, clock n ≤ clock (n + 1)) →
      ∀ actions : List Action,
        Along (step clock localtime) (Distinct clock localtime) {} actions := by
  intro h
  have hdistinct := h (fun n => n) (fun _ => ⟨70, 0, 1, 0, 0, 0⟩)
    (fun n => Int.ofNat_le.mpr n.le_succ) twoAtOnce
  rw [distinct_iff] at hdistinct
  exact absurd hdistinct (by decide)

end SegmentWriters

end LoongNvr.Storage
