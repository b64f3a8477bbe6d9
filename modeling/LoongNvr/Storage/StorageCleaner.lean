import LoongNvr.Storage.RecordIndex
import LoongNvr.Support.Batches
import Mathlib.Algebra.Order.Field.Rat
import Mathlib.Tactic.Ring

/-!
# Storage — StorageCleaner

Cleaning a channel by its quota: first by size, the oldest segments in batches of five, then by
age.  A segment's row goes before its file, and the running total is lowered only if the removal of
the file reported no error.

* `cleanChannel`: the two passes, over an index and a disk.
* `cleanChannel_spec`: which segments go, and what is left on disk.
* `Clean`: no file is left without a row, and no segment goes that need not.
* `clean_iff`: that is so exactly if every file to go can be removed and the number of segments to
  go fills its batches.
-/

namespace LoongNvr.Storage
open Support

/-! ### The disk -/

/-- The files, by path. -/
structure RecordingFiles where
  files : List String
  named : "" ∉ files

/-- `std::filesystem::remove`: whether there was an error.  That there is no such file is none. -/
def RecordingFiles.remove (fails : String → Bool) (path : String) (disk : RecordingFiles) :
    RecordingFiles × Bool :=
  if fails path then (disk, true)
  else
    ({ files := disk.files.filter (· ≠ path)
       named := fun h => disk.named (List.mem_filter.mp h).1 }, false)

/-! ### The cleaner -/

/-- The index and the disk. -/
structure Recordings where
  index : RecordIndex
  disk : RecordingFiles

/-- What the cleaner reads of a channel's quota. -/
structure StorageQuota where
  maxDays : ℤ := 30
  maxSizeGb : ℚ := 100
  deriving DecidableEq, Repr

/-- `static_cast<double>(bytes) / (1024.0 * 1024.0 * 1024.0)` -/
def gb (bytes : ℤ) : ℚ := bytes / (1024 * 1024 * 1024)

namespace StorageCleaner

variable (fails : String → Bool)

/-- Whether there was a file to remove and its removal reported no error. -/
def deleteSegment (segmentId : ℤ) (r : Recordings) : Recordings × Bool :=
  let (index, path) := r.index.deleteSegment segmentId
  if path ≠ "" then
    let (disk, ec) := r.disk.remove fails path
    (⟨index, disk⟩, !ec)
  else (⟨index, r.disk⟩, false)

/-- `for (const auto& seg : oldest)`, with the running total. -/
def deleteBatch : List (ℤ × SegmentRow) → Recordings → ℚ → Recordings × ℚ
  | [], r, totalGb => (r, totalGb)
  | seg :: oldest, r, totalGb =>
      let (r, freed) := deleteSegment fails seg.1 r
      deleteBatch oldest r (if freed then totalGb - gb seg.2.fileSize else totalGb)

/-- `while (total_gb > target_gb)`, with the segments it deletes. -/
def sizePass (channelId : ℤ) (targetGb : ℚ) :
    ℕ → Recordings → ℚ → Recordings × List (ℤ × SegmentRow)
  | 0, r, _ => (r, [])
  | fuel + 1, r, totalGb =>
      if totalGb > targetGb then
        match r.index.getOldestSegments channelId 5 with
        | [] => (r, [])
        | oldest =>
            let (r, totalGb) := deleteBatch fails oldest r totalGb
            let (r, deleted) := sizePass channelId targetGb fuel r totalGb
            (r, oldest ++ deleted)
      else (r, [])

/-- The channel is at more than nine tenths of its quota. -/
def Full (channelId : ℤ) (quota : StorageQuota) (r : Recordings) : Prop :=
  gb (r.index.getChannelTotalSize channelId) > quota.maxSizeGb * (9 / 10)

instance (channelId : ℤ) (quota : StorageQuota) (r : Recordings) :
    Decidable (Full channelId quota r) :=
  inferInstanceAs (Decidable (_ > _))

/-- The size-based pass, if the channel is full. -/
def cleanBySize (channelId : ℤ) (quota : StorageQuota) (r : Recordings) :
    Recordings × List (ℤ × SegmentRow) :=
  if Full channelId quota r then
    sizePass fails channelId (quota.maxSizeGb * (8 / 10))
      (r.index.channelSegments channelId).length r (gb (r.index.getChannelTotalSize channelId))
  else (r, [])

def cutoffMs (now : ℤ) (quota : StorageQuota) : ℤ := now - quota.maxDays * 86400 * 1000

/-- The age-based pass. -/
def cleanByAge (channelId now : ℤ) (quota : StorageQuota) (r : Recordings) : Recordings :=
  (r.index.querySegments channelId 0 (cutoffMs now quota)).foldl
    (fun r seg => (deleteSegment fails seg.1 r).1) r

/-- What is left, and the segments the size-based pass deleted, in order. -/
def cleanChannel (channelId now : ℤ) (quota : StorageQuota) (r : Recordings) :
    Recordings × List (ℤ × SegmentRow) :=
  let (r, deleted) := cleanBySize fails channelId quota r
  (cleanByAge fails channelId now quota r, deleted)

/-! ### Deleting segments -/

/-- Whether the removal of the segment's file reports no error. -/
def freed (row : SegmentRow) : Bool := row.filePath ≠ "" ∧ ¬ fails row.filePath

/-- What the running total loses by the segment. -/
def weight (seg : ℤ × SegmentRow) : ℚ := if freed fails seg.2 then gb seg.2.fileSize else 0

/-- The segments are gone from the index, and of their files those that can be removed. -/
structure Deleted (segs : List (ℤ × SegmentRow)) (r r' : Recordings) : Prop where
  rows : r'.index.segments.rows =
    r.index.segments.rows.filter fun row => row.1 ∉ segs.map (·.1)
  files : ∀ path, path ∈ r'.disk.files ↔
    path ∈ r.disk.files ∧ ∀ seg ∈ segs, seg.2.filePath = path → fails path

variable {fails}

theorem Deleted.refl (r : Recordings) : Deleted fails [] r r :=
  ⟨by simp, fun _ => by simp⟩

theorem Deleted.trans {segs segs' : List (ℤ × SegmentRow)} {r r' r'' : Recordings}
    (h : Deleted fails segs r r') (h' : Deleted fails segs' r' r'') :
    Deleted fails (segs ++ segs') r r'' := by
  refine ⟨?_, fun path => ?_⟩
  · rw [h'.rows, h.rows, List.filter_filter]
    refine List.filter_congr fun row _ => Bool.eq_iff_iff.mpr ?_
    simp only [Bool.and_eq_true, decide_eq_true_eq, List.map_append, List.mem_append, not_or]
    exact and_comm
  · rw [h'.files, h.files, and_assoc]
    simp only [List.mem_append, or_imp, forall_and]

variable (fails) in
/-- **One segment.** -/
theorem deleteSegment_spec {seg : ℤ × SegmentRow} {r : Recordings}
    (hseg : seg ∈ r.index.segments.rows) :
    Deleted fails [seg] r (deleteSegment fails seg.1 r).1 ∧
      (deleteSegment fails seg.1 r).2 = freed fails seg.2 := by
  have hfind := r.index.segments.find_eq_some_iff.mpr hseg
  have hrows : ∀ rows : List (ℤ × SegmentRow), (rows.filter fun row => row.1 ≠ seg.1) =
      rows.filter fun row => row.1 ∉ [seg].map (·.1) := fun rows =>
    List.filter_congr fun row _ => by simp
  simp only [deleteSegment, RecordIndex.deleteSegment, hfind, Option.map_some, Option.getD_some]
  by_cases hpath : seg.2.filePath = ""
  · rw [if_neg (not_not.mpr hpath)]
    refine ⟨⟨hrows _, fun path => ?_⟩, by simp [freed, hpath]⟩
    have hnamed : path ∈ r.disk.files → seg.2.filePath ≠ path := by
      rintro hmem rfl
      exact r.disk.named (hpath ▸ hmem)
    simp only [List.mem_singleton, forall_eq]
    exact ⟨fun hmem => ⟨hmem, fun e => absurd e (hnamed hmem)⟩, And.left⟩
  · rw [if_pos hpath]
    simp only [RecordingFiles.remove]
    split
    · rename_i hfails
      refine ⟨⟨hrows _, fun path => ?_⟩, by simp [freed, hfails]⟩
      simp only [List.mem_singleton, forall_eq]
      exact ⟨fun hmem => ⟨hmem, fun e => e ▸ hfails⟩, And.left⟩
    · rename_i hfails
      refine ⟨⟨hrows _, fun path => ?_⟩, by simp [freed, hfails, hpath]⟩
      simp only [List.mem_filter, List.mem_singleton, forall_eq, decide_eq_true_eq]
      refine and_congr_right fun _ => ⟨fun hne e => absurd e.symm hne, ?_⟩
      rintro himp rfl
      exact hfails (himp rfl)

/-- Segments still to be deleted are there after another one is. -/
theorem Deleted.mem {segs : List (ℤ × SegmentRow)} {r r' : Recordings}
    (h : Deleted fails segs r r') {seg : ℤ × SegmentRow} :
    seg ∈ r'.index.segments.rows ↔ seg ∈ r.index.segments.rows ∧ seg.1 ∉ segs.map (·.1) := by
  rw [h.rows, List.mem_filter, decide_eq_true_eq]

variable {segs : List (ℤ × SegmentRow)} {r : Recordings}

/-- Those of the rest are there once the first is deleted. -/
theorem mem_deleted_one {seg : ℤ × SegmentRow} {r' : Recordings}
    (hnodup : ((seg :: segs).map (·.1)).Nodup)
    (hmem : ∀ s ∈ seg :: segs, s ∈ r.index.segments.rows) (h : Deleted fails [seg] r r') :
    ∀ s ∈ segs, s ∈ r'.index.segments.rows := by
  intro s hs
  refine h.mem.mpr ⟨hmem s (List.mem_cons_of_mem _ hs), fun hid => ?_⟩
  rw [List.map_singleton, List.mem_singleton] at hid
  have hnot : seg.1 ∉ segs.map (·.1) := (List.nodup_cons.mp hnodup).1
  exact hnot (hid ▸ List.mem_map_of_mem hs)

variable (fails) in
/-- **A batch.** -/
theorem deleteBatch_spec (totalGb : ℚ) (hnodup : (segs.map (·.1)).Nodup)
    (hmem : ∀ s ∈ segs, s ∈ r.index.segments.rows) :
    Deleted fails segs r (deleteBatch fails segs r totalGb).1 ∧
      (deleteBatch fails segs r totalGb).2 = totalGb - (segs.map (weight fails)).sum := by
  induction segs generalizing r totalGb with
  | nil => exact ⟨.refl r, by simp [deleteBatch]⟩
  | cons seg segs ih =>
      obtain ⟨hone, hfreed⟩ := deleteSegment_spec fails (hmem seg List.mem_cons_self)
      have hrest := mem_deleted_one hnodup hmem hone
      obtain ⟨hall, htotal⟩ := ih
        (if (deleteSegment fails seg.1 r).2 then totalGb - gb seg.2.fileSize else totalGb)
        (List.nodup_cons.mp hnodup).2 hrest
      refine ⟨hone.trans hall, ?_⟩
      rw [deleteBatch, htotal, hfreed, List.map_cons, List.sum_cons, weight]
      split <;> ring

/-- The segments of the age-based pass. -/
theorem deleteEach_spec (hnodup : (segs.map (·.1)).Nodup)
    (hmem : ∀ s ∈ segs, s ∈ r.index.segments.rows) :
    Deleted fails segs r (segs.foldl (fun r seg => (deleteSegment fails seg.1 r).1) r) := by
  induction segs generalizing r with
  | nil => exact .refl r
  | cons seg segs ih =>
      have hone := (deleteSegment_spec fails (hmem seg List.mem_cons_self)).1
      exact hone.trans (ih (List.nodup_cons.mp hnodup).2 (mem_deleted_one hnodup hmem hone))

/-! ### The order of the segments -/

/-- The channel's segments, oldest first. -/
def order (channelId : ℤ) (r : Recordings) : List (ℤ × SegmentRow) :=
  oldestFirst (r.index.channelSegments channelId)

variable {channelId : ℤ}

theorem mem_order {seg : ℤ × SegmentRow} :
    seg ∈ order channelId r ↔ seg ∈ r.index.segments.rows ∧ seg.2.channelId = channelId := by
  simp only [order, mem_oldestFirst, RecordIndex.channelSegments, Table.mem_select,
    decide_eq_true_eq]

theorem nodup_order (channelId : ℤ) (r : Recordings) :
    ((order channelId r).map (·.1)).Nodup :=
  ((oldestFirst_perm _).map _).nodup_iff.mpr
    (r.index.segments.nodup_ids.sublist (List.filter_sublist.map _))

/-- The segments that are left are in the order they were in. -/
theorem Deleted.order {r' : Recordings} (h : Deleted fails segs r r') (channelId : ℤ) :
    order channelId r' = (order channelId r).filter fun row => row.1 ∉ segs.map (·.1) := by
  simp only [StorageCleaner.order, RecordIndex.channelSegments, Table.select]
  rw [h.rows, List.filter_comm, oldestFirst_filter]
  exact r.index.segments.nodup_ids.sublist (List.filter_sublist.map _)

/-- Without its first `k`, the others follow. -/
theorem filter_take {rows : List (ℤ × SegmentRow)} (hnodup : (rows.map (·.1)).Nodup) (k : ℕ) :
    (rows.filter fun row => row.1 ∉ (rows.take k).map (·.1)) = rows.drop k := by
  have hsplit : rows = rows.take k ++ rows.drop k := (List.take_append_drop k rows).symm
  have hdisjoint : ∀ a ∈ (rows.take k).map (·.1), ∀ b ∈ (rows.drop k).map (·.1), a ≠ b := by
    rw [hsplit, List.map_append, List.nodup_append] at hnodup
    exact hnodup.2.2
  generalize rows.take k = front at *
  generalize rows.drop k = back at *
  subst hsplit
  rw [List.filter_append, List.filter_eq_nil_iff.mpr, List.nil_append, List.filter_eq_self.mpr]
  · intro row hrow
    rw [decide_eq_true_eq]
    exact fun hmem => hdisjoint _ hmem _ (List.mem_map_of_mem hrow) rfl
  · intro row hrow
    rw [decide_eq_true_eq, not_not]
    exact List.mem_map_of_mem hrow

/-- What the first `k` segments leave. -/
theorem Deleted.order_drop {r' : Recordings} {k : ℕ}
    (h : Deleted fails ((StorageCleaner.order channelId r).take k) r r') :
    StorageCleaner.order channelId r' = (StorageCleaner.order channelId r).drop k := by
  rw [h.order, filter_take (nodup_order channelId r)]

/-! ### The size-based pass -/

theorem take_mem {k : ℕ} {seg : ℤ × SegmentRow} (hseg : seg ∈ (order channelId r).take k) :
    seg ∈ r.index.segments.rows :=
  (mem_order.mp (List.mem_of_mem_take hseg)).1

theorem take_nodup (channelId : ℤ) (r : Recordings) (k : ℕ) :
    (((order channelId r).take k).map (·.1)).Nodup :=
  (nodup_order channelId r).sublist ((List.take_sublist k _).map _)

variable (fails) in
/-- **The pass takes segments off the front of the order, five at a time.** -/
theorem sizePass_spec (channelId : ℤ) (targetGb : ℚ) (fuel : ℕ) (totalGb : ℚ) :
    let d := Batches.taken 5 targetGb (weight fails) fuel (order channelId r) totalGb
    Deleted fails ((order channelId r).take d) r
        (sizePass fails channelId targetGb fuel r totalGb).1 ∧
      (sizePass fails channelId targetGb fuel r totalGb).2 = (order channelId r).take d := by
  induction fuel generalizing r totalGb with
  | zero => exact ⟨.refl r, rfl⟩
  | succ fuel ih =>
      simp only [Batches.taken, sizePass, gt_iff_lt]
      by_cases htotal : targetGb < totalGb
      · rw [if_pos htotal]
        have htake : r.index.getOldestSegments channelId 5 = (order channelId r).take 5 := rfl
        cases holdest : r.index.getOldestSegments channelId 5 with
        | nil =>
            have hempty : order channelId r = [] := by
              simpa [htake, List.take_eq_nil_iff] using holdest
            rw [if_neg (fun h => h.2 hempty)]
            exact ⟨.refl r, rfl⟩
        | cons seg oldest =>
            have hne : order channelId r ≠ [] := by
              intro hempty
              rw [htake, hempty] at holdest
              exact absurd holdest (by simp)
            have hbatch : seg :: oldest = (order channelId r).take 5 := holdest.symm.trans htake
            rw [if_pos ⟨htotal, hne⟩]
            dsimp only
            rw [hbatch]
            obtain ⟨hbatch, htotal'⟩ := deleteBatch_spec fails totalGb
              (take_nodup channelId r 5) fun s hs => take_mem hs
            generalize deleteBatch fails ((order channelId r).take 5) r totalGb = next at *
            obtain ⟨hpass, hdeleted⟩ := ih (r := next.1) next.2
            rw [hbatch.order_drop, htotal'] at hpass hdeleted
            rw [Batches.take_taken, htotal']
            exact ⟨hbatch.trans hpass, congrArg _ hdeleted⟩
      · rw [if_neg htotal, if_neg (fun h => htotal h.1)]
        exact ⟨.refl r, rfl⟩

/-! ### Both passes -/

/-- Whether the age-based pass takes a segment. -/
def old (now : ℤ) (quota : StorageQuota) (seg : ℤ × SegmentRow) : Bool :=
  seg.2.startTime ≤ cutoffMs now quota ∧ seg.2.endTime ≥ 0

/-- What goes if the size-based pass takes `d` segments. -/
def going (channelId now : ℤ) (quota : StorageQuota) (r : Recordings) (d : ℕ) :
    List (ℤ × SegmentRow) :=
  (order channelId r).take d ++ ((order channelId r).drop d).filter (old now quota)

/-- What stays if the size-based pass takes `d` segments. -/
def staying (channelId now : ℤ) (quota : StorageQuota) (r : Recordings) (d : ℕ) :
    List (ℤ × SegmentRow) :=
  ((order channelId r).drop d).filter fun seg => !old now quota seg

variable (fails) in
theorem cleanByAge_spec (channelId now : ℤ) (quota : StorageQuota) (r : Recordings) :
    Deleted fails ((order channelId r).filter (old now quota)) r
      (cleanByAge fails channelId now quota r) := by
  have hquery : r.index.querySegments channelId 0 (cutoffMs now quota) =
      (order channelId r).filter (old now quota) := by
    rw [order, ← oldestFirst_filter]
    · rfl
    · exact r.index.segments.nodup_ids.sublist (List.filter_sublist.map _)
  rw [cleanByAge, hquery]
  refine deleteEach_spec ((nodup_order channelId r).sublist (List.filter_sublist.map _)) ?_
  exact fun s hs => (mem_order.mp (List.mem_filter.mp hs).1).1

variable (fails) in
/-- The total in GB once the first `k` segments are deleted, as far as their files are freed. -/
def remainingGb (channelId : ℤ) (r : Recordings) (k : ℕ) : ℚ :=
  Batches.remaining (weight fails) (order channelId r) (gb (r.index.getChannelTotalSize channelId)) k

variable (fails) in
/-- **The two passes.** -/
theorem cleanChannel_spec (channelId now : ℤ) (quota : StorageQuota) (r : Recordings) :
    ∃ d, (cleanChannel fails channelId now quota r).2 = (order channelId r).take d ∧
      Deleted fails (going channelId now quota r d) r
        (cleanChannel fails channelId now quota r).1 ∧
      (Full channelId quota r → Batches.Taken 5 (quota.maxSizeGb * (8 / 10)) (weight fails)
        (order channelId r) (gb (r.index.getChannelTotalSize channelId)) d) ∧
      (¬ Full channelId quota r → d = 0) := by
  simp only [cleanChannel, cleanBySize]
  by_cases hfull : Full channelId quota r
  · have hlen : (order channelId r).length = (r.index.channelSegments channelId).length :=
      (oldestFirst_perm _).length_eq
    obtain ⟨hpass, hdeleted⟩ := sizePass_spec fails channelId
      (quota.maxSizeGb * (8 / 10)) (r.index.channelSegments channelId).length
      (gb (r.index.getChannelTotalSize channelId))
    rw [if_pos hfull]
    refine ⟨_, hdeleted, ?_, fun _ => Batches.taken_spec (by decide) hlen.le _, absurd hfull⟩
    have hage := cleanByAge_spec fails channelId now quota
      (sizePass fails channelId (quota.maxSizeGb * (8 / 10))
        (r.index.channelSegments channelId).length r
        (gb (r.index.getChannelTotalSize channelId))).1
    rw [hpass.order_drop] at hage
    exact hpass.trans hage
  · rw [if_neg hfull]
    refine ⟨0, rfl, ?_, fun h => absurd h hfull, fun _ => rfl⟩
    exact cleanByAge_spec fails channelId now quota r

/-- What is left in the index. -/
theorem mem_left {now : ℤ} {quota : StorageQuota} {r' : Recordings} {d : ℕ}
    (h : Deleted fails (going channelId now quota r d) r r') {seg : ℤ × SegmentRow} :
    seg ∈ r'.index.channelSegments channelId ↔ seg ∈ staying channelId now quota r d := by
  have hnodup := nodup_order channelId r
  have horder : seg ∈ r'.index.channelSegments channelId ↔ seg ∈ order channelId r' :=
    mem_oldestFirst.symm
  have hdrop : seg ∈ order channelId r ∧ seg.1 ∉ ((order channelId r).take d).map (·.1) ↔
      seg ∈ (order channelId r).drop d := by
    rw [← filter_take hnodup d, List.mem_filter, decide_eq_true_eq]
  rw [horder, h.order, List.mem_filter, decide_eq_true_eq, going, List.map_append,
    List.mem_append, not_or, ← and_assoc, hdrop, staying, List.mem_filter, Bool.not_eq_true']
  refine and_congr_right fun hseg => ?_
  constructor
  · intro hid
    by_contra hold
    rw [Bool.not_eq_false] at hold
    exact hid (List.mem_map_of_mem (List.mem_filter.mpr ⟨hseg, hold⟩))
  · intro hnew hid
    obtain ⟨seg', hseg', hsame⟩ := List.mem_map.mp hid
    obtain ⟨hmem, hold⟩ := List.mem_filter.mp hseg'
    have heq := List.inj_on_of_nodup_map hnodup (List.mem_of_mem_drop hmem)
      (List.mem_of_mem_drop hseg) hsame
    rw [heq, hnew] at hold
    exact Bool.noConfusion hold

/-- Every segment stays or goes. -/
theorem going_or_staying (now : ℤ) (quota : StorageQuota) (d : ℕ) {seg : ℤ × SegmentRow}
    (h : seg ∈ order channelId r) :
    seg ∈ going channelId now quota r d ∨ seg ∈ staying channelId now quota r d := by
  rw [← List.take_append_drop d (order channelId r)] at h
  rcases List.mem_append.mp h with hfront | hback
  · exact .inl (List.mem_append_left _ hfront)
  · cases hold : old now quota seg with
    | true => exact .inl (List.mem_append_right _ (List.mem_filter.mpr ⟨hback, hold⟩))
    | false => exact .inr (List.mem_filter.mpr ⟨hback, by simp [hold]⟩)

theorem mem_of_going {now : ℤ} {quota : StorageQuota} {d : ℕ} {seg : ℤ × SegmentRow}
    (h : seg ∈ going channelId now quota r d) : seg ∈ order channelId r := by
  rcases List.mem_append.mp h with hfront | hback
  · exact List.mem_of_mem_take hfront
  · exact List.mem_of_mem_drop (List.mem_filter.mp hback).1

/-! ### Files and rows -/

variable (fails) in
/-- Each file to go can be removed, or a segment that stays has the same one. -/
def Removable (channelId now : ℤ) (quota : StorageQuota) (r : Recordings) (d : ℕ) : Prop :=
  ∀ seg ∈ going channelId now quota r d, seg.2.filePath ∈ r.disk.files →
    fails seg.2.filePath → ∃ kept ∈ staying channelId now quota r d,
      kept.2.filePath = seg.2.filePath

/-- **Files left without a row are those that could not be removed.** -/
theorem indexed_iff {now : ℤ} {quota : StorageQuota} {r' : Recordings} {d : ℕ}
    (h : Deleted fails (going channelId now quota r d) r r') :
    (∀ seg ∈ r.index.channelSegments channelId, seg.2.filePath ∈ r'.disk.files →
      ∃ kept ∈ r'.index.channelSegments channelId, kept.2.filePath = seg.2.filePath) ↔
    Removable fails channelId now quota r d := by
  simp only [mem_left h, h.files, Removable]
  constructor
  · intro hindexed seg hgoing hdisk hfails
    exact hindexed seg (mem_oldestFirst.mp (mem_of_going hgoing)) ⟨hdisk, fun _ _ _ => hfails⟩
  · rintro hremovable seg hseg ⟨hdisk, hfails⟩
    rcases going_or_staying now quota d (mem_oldestFirst.mpr hseg) with hgoing | hstaying
    · exact hremovable seg hgoing hdisk (hfails seg hgoing rfl)
    · exact ⟨seg, hstaying, rfl⟩

/-! ### No file lost and no segment too many -/

variable (fails)

/-- No file of the channel is left on disk without a row, and the size-based pass deletes segments
in order and none once the total is at eight tenths of the quota. -/
structure Clean (channelId now : ℤ) (quota : StorageQuota) (r : Recordings) : Prop where
  indexed : ∀ seg ∈ r.index.channelSegments channelId,
    seg.2.filePath ∈ (cleanChannel fails channelId now quota r).1.disk.files →
      ∃ kept ∈ (cleanChannel fails channelId now quota r).1.index.channelSegments channelId,
        kept.2.filePath = seg.2.filePath
  oldest : (cleanChannel fails channelId now quota r).2 <+: order channelId r
  needed : ∀ k < (cleanChannel fails channelId now quota r).2.length,
    quota.maxSizeGb * (8 / 10) < remainingGb fails channelId r k

/-- How many segments the size-based pass has to delete. -/
def needed (channelId : ℤ) (quota : StorageQuota) (r : Recordings) : ℕ :=
  if Full channelId quota r then
    Batches.fewest (quota.maxSizeGb * (8 / 10)) (weight fails) (order channelId r)
      (gb (r.index.getChannelTotalSize channelId))
  else 0

/-- `needed` fills its batches. -/
def FillsBatches (channelId : ℤ) (quota : StorageQuota) (r : Recordings) : Prop :=
  5 ∣ needed fails channelId quota r ∨ needed fails channelId quota r = (order channelId r).length

/-- **Every segment deleted for size was needed exactly if the needed ones fill their batches.** -/
theorem needed_iff (channelId now : ℤ) (quota : StorageQuota) (r : Recordings) :
    (∀ k < (cleanChannel fails channelId now quota r).2.length,
      quota.maxSizeGb * (8 / 10) < remainingGb fails channelId r k) ↔
    FillsBatches fails channelId quota r := by
  obtain ⟨d, hdeleted, -, hfull, hempty⟩ := cleanChannel_spec fails channelId now quota r
  rw [hdeleted, List.length_take, FillsBatches, needed]
  by_cases h : Full channelId quota r
  · have htaken := hfull h
    rw [if_pos h, Nat.min_eq_left htaken.le]
    exact htaken.overshoot_iff
  · rw [if_neg h, hempty h]
    exact ⟨fun _ => .inl (Nat.dvd_zero 5), fun _ k hk => absurd hk (by simp)⟩

/-- Then those are the ones deleted. -/
theorem deleted_needed (channelId now : ℤ) (quota : StorageQuota) (r : Recordings)
    (hfills : FillsBatches fails channelId quota r) :
    Deleted fails (going channelId now quota r (needed fails channelId quota r)) r
      (cleanChannel fails channelId now quota r).1 := by
  obtain ⟨d, -, hleft, hfull, hempty⟩ := cleanChannel_spec fails channelId now quota r
  have hd : d = needed fails channelId quota r := by
    rw [FillsBatches, needed] at hfills
    rw [needed]
    split
    · rename_i h
      rw [if_pos h] at hfills
      exact (hfull h).eq_fewest hfills
    · rename_i h
      exact hempty h
  exact hd ▸ hleft

theorem oldest_deleted (channelId now : ℤ) (quota : StorageQuota) (r : Recordings) :
    (cleanChannel fails channelId now quota r).2 <+: order channelId r := by
  obtain ⟨d, hdeleted, -⟩ := cleanChannel_spec fails channelId now quota r
  rw [hdeleted]
  exact List.take_prefix d _

/-- **Cleaning a channel loses no file and deletes no more than needed exactly if the segments
needed fill batches of five, or are all there are, and the file of each segment to go can be
removed.** -/
theorem clean_iff (channelId now : ℤ) (quota : StorageQuota) (r : Recordings) :
    Clean fails channelId now quota r ↔
      FillsBatches fails channelId quota r ∧
        Removable fails channelId now quota r (needed fails channelId quota r) := by
  constructor
  · rintro ⟨hindexed, -, hneeded⟩
    have hfills := (needed_iff fails channelId now quota r).mp hneeded
    exact ⟨hfills, (indexed_iff (deleted_needed fails channelId now quota r hfills)).mp hindexed⟩
  · rintro ⟨hfills, hremovable⟩
    exact
      { indexed := (indexed_iff (deleted_needed fails channelId now quota r hfills)).mpr hremovable
        oldest := oldest_deleted fails channelId now quota r
        needed := (needed_iff fails channelId now quota r).mpr hfills }

/-- Segments of 256 MiB, one an hour, with their files on disk. -/
def hourly (paths : List String) (hnamed : "" ∉ paths) : Recordings where
  index := (paths.zipIdx.map fun (path, hour) => (
      { channelId := 1, startTime := hour * 3600000, endTime := (hour + 1) * 3600000
        filePath := path, fileSize := 268435456 } : SegmentRow)).foldl
    (fun index info => (index.insertSegment info).1) {}
  disk := ⟨paths, hnamed⟩

/-- A file that cannot be removed stays on disk without a row; and of eight segments where two
would do, five are deleted. -/
theorem clean_refuted :
    ¬ Clean (fun _ => true) 1 0 { maxSizeGb := 1 / 4 } (hourly ["a.mp4"] (by decide)) ∧
    ¬ Clean (fun _ => false) 1 0 { maxSizeGb := 2 }
      (hourly ["a.mp4", "b.mp4", "c.mp4", "d.mp4", "e.mp4", "f.mp4", "g.mp4", "h.mp4"]
        (by decide)) := by
  constructor
  · intro h
    have hdisk := h.indexed (1, ⟨1, 0, 3600000, "a.mp4", 268435456, "", "", false⟩)
      (by decide +kernel) (by decide +kernel)
    exact absurd hdisk (by decide +kernel)
  · intro h
    exact absurd (h.needed 2 (by decide +kernel)) (by decide +kernel)

end StorageCleaner

end LoongNvr.Storage
