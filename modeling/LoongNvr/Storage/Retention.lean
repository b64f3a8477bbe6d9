import LoongNvr.Storage.Recorder
import LoongNvr.Storage.StorageCleaner

/-!
# Storage — Retention

Which segments the age-based pass of the cleaner deletes.  It asks for them with the query that
playback uses, which answers with every segment that overlaps the time up to the cutoff.

* `expired`: the segments whose period is over.
* `EndsInPeriod`: those that started by the cutoff are over, and had ended before it.
* `retained_iff`: the pass deletes exactly the expired segments if and only if that is so.
* `openSegment_deleted`: the row of a segment being recorded ends where it starts, so the pass
  takes it once the cutoff has reached its start.
-/

namespace LoongNvr.Storage.StorageCleaner
open Support

variable {fails : String → Bool} {recording : List ℤ} {channelId now : ℤ} {quota : StorageQuota}
  {r : Recordings}

/-! ### What a deletion says -/

/-- **The same segments are deleted exactly if the same rows are among them.** -/
theorem Deleted.congr_iff {segs segs' : List (ℤ × SegmentRow)} {r' : Recordings}
    (h : Deleted fails segs r r') (hsegs : ∀ seg ∈ segs, seg ∈ r.index.segments.rows)
    (hsegs' : ∀ seg ∈ segs', seg ∈ r.index.segments.rows) :
    Deleted fails segs' r r' ↔ ∀ seg ∈ r.index.segments.rows, seg ∈ segs' ↔ seg ∈ segs := by
  -- a row is named by its id, since no two rows have the same one
  have hnamed : ∀ l : List (ℤ × SegmentRow), (∀ seg ∈ l, seg ∈ r.index.segments.rows) →
      ∀ seg ∈ r.index.segments.rows, seg.1 ∈ l.map (·.1) ↔ seg ∈ l := by
    intro l hl seg hseg
    constructor
    · intro hid
      obtain ⟨seg', hmem, hsame⟩ := List.mem_map.mp hid
      obtain rfl := List.inj_on_of_nodup_map r.index.segments.nodup_ids (hl seg' hmem) hseg hsame
      exact hmem
    · intro hmem
      exact List.mem_map_of_mem hmem
  constructor
  · intro h' seg hseg
    have hleft : seg ∈ r'.index.segments.rows ↔
        seg ∈ r.index.segments.rows ∧ seg.1 ∉ segs.map (·.1) := h.mem
    rw [h'.mem, and_congr_right_iff] at hleft
    have hids := not_iff_not.mp (hleft hseg)
    rwa [hnamed _ hsegs' seg hseg, hnamed _ hsegs seg hseg] at hids
  · intro hsame
    have hmem : ∀ seg, seg ∈ segs' ↔ seg ∈ segs := by
      intro seg
      constructor
      · intro hseg
        exact (hsame seg (hsegs' seg hseg)).mp hseg
      · intro hseg
        exact (hsame seg (hsegs seg hseg)).mpr hseg
    refine ⟨?_, fun path => ?_⟩
    · rw [h.rows]
      refine List.filter_congr fun row _ => ?_
      simp only [List.mem_map, hmem]
    · rw [h.files]
      simp only [hmem]

/-! ### The period -/

/-- The channel's segments that are no longer being recorded and ended before the cutoff. -/
def expired (recording : List ℤ) (channelId now : ℤ) (quota : StorageQuota) (r : Recordings) :
    List (ℤ × SegmentRow) :=
  (order channelId r).filter fun seg =>
    seg.1 ∉ recording ∧ seg.2.endTime < cutoffMs now quota

/-- The age-based pass deletes the expired segments and no other. -/
def Retained (fails : String → Bool) (recording : List ℤ) (channelId now : ℤ)
    (quota : StorageQuota) (r : Recordings) : Prop :=
  Deleted fails (expired recording channelId now quota r) r
    (cleanByAge fails channelId now quota r)

/-- No segment reaches over the cutoff or over the time zero, and none that started by the cutoff
is being recorded. -/
structure EndsInPeriod (recording : List ℤ) (channelId now : ℤ) (quota : StorageQuota)
    (r : Recordings) : Prop where
  finished : ∀ seg ∈ order channelId r, seg.2.startTime ≤ cutoffMs now quota → 0 ≤ seg.2.endTime →
    seg.1 ∉ recording
  ended : ∀ seg ∈ order channelId r, seg.2.startTime ≤ cutoffMs now quota → 0 ≤ seg.2.endTime →
    seg.2.endTime < cutoffMs now quota
  dated : ∀ seg ∈ order channelId r, seg.1 ∉ recording → seg.2.endTime < cutoffMs now quota →
    0 ≤ seg.2.endTime

/-- **The pass deletes exactly the expired segments if and only if no segment is on both sides of
the cutoff, none that started by then is being recorded, and all end at a time from zero on.** -/
theorem retained_iff (fails : String → Bool) (recording : List ℤ) (channelId now : ℤ)
    (quota : StorageQuota) (r : Recordings)
    (hordered : ∀ seg ∈ order channelId r, seg.2.startTime ≤ seg.2.endTime) :
    Retained fails recording channelId now quota r ↔
      EndsInPeriod recording channelId now quota r := by
  have hrows : ∀ p : ℤ × SegmentRow → Bool, ∀ seg ∈ (order channelId r).filter p,
      seg ∈ r.index.segments.rows := by
    intro p seg hseg
    exact (mem_order.mp (List.mem_filter.mp hseg).1).1
  have hexpired : ∀ seg ∈ expired recording channelId now quota r, seg ∈ r.index.segments.rows :=
    hrows _
  have hcongr := (cleanByAge_spec fails channelId now quota r).congr_iff (hrows _) hexpired
  rw [Retained, hcongr]
  simp only [expired, old, List.mem_filter, decide_eq_true_eq, and_congr_right_iff]
  constructor
  · intro hsame
    have hsame' : ∀ seg ∈ order channelId r,
        (seg.1 ∉ recording ∧ seg.2.endTime < cutoffMs now quota ↔
          seg.2.startTime ≤ cutoffMs now quota ∧ 0 ≤ seg.2.endTime) := by
      intro seg hseg
      exact hsame seg (mem_order.mp hseg).1 hseg
    exact
      { finished := fun seg hseg hstart hend => ((hsame' seg hseg).mpr ⟨hstart, hend⟩).1
        ended := fun seg hseg hstart hend => ((hsame' seg hseg).mpr ⟨hstart, hend⟩).2
        dated := fun seg hseg hover hend => ((hsame' seg hseg).mp ⟨hover, hend⟩).2 }
  · rintro ⟨hover, hended, hdated⟩ seg - hseg
    constructor
    · rintro ⟨hfinished, hend⟩
      have hstart := (hordered seg hseg).trans hend.le
      exact ⟨hstart, hdated seg hseg hfinished hend⟩
    · rintro ⟨hstart, hend⟩
      exact ⟨hover seg hseg hstart hend, hended seg hseg hstart hend⟩

/-- Two segments of a second each on either side of the cutoff, which is at five seconds. -/
theorem retained_split :
    let r : Recordings :=
      ⟨(((({} : RecordIndex).insertSegment ⟨1, 1000, 2000, "a.mp4", 0, "", "", false⟩).1
          ).insertSegment ⟨1, 8000, 9000, "b.mp4", 0, "", "", false⟩).1,
        ⟨["a.mp4", "b.mp4"], by decide⟩⟩
    Retained (fun _ => false) [2] 1 (30 * 86400 * 1000 + 5000) {} r ∧
      expired [2] 1 (30 * 86400 * 1000 + 5000) {} r =
        [(1, ⟨1, 1000, 2000, "a.mp4", 0, "", "", false⟩)] :=
  ⟨(retained_iff _ _ _ _ _ _ (by decide +kernel)).mpr
    ⟨by decide +kernel, by decide +kernel, by decide +kernel⟩, by decide +kernel⟩

/-- With the cutoff half an hour into a segment of one hour, the segment is deleted. -/
theorem retained_refuted :
    ¬ (∀ (recording : List ℤ) (now : ℤ) (quota : StorageQuota) (r : Recordings),
        (∀ seg ∈ order 1 r, seg.2.startTime ≤ seg.2.endTime) →
          Retained (fun _ => false) recording 1 now quota r) := by
  intro h
  have hdeleted := h [] (30 * 86400 * 1000 + 1800000) {} (hourly ["a.mp4"] (by decide))
    (by decide +kernel)
  have hfile := (hdeleted.files "a.mp4").mpr ⟨by decide +kernel, by decide +kernel⟩
  exact absurd hfile (by decide +kernel)

/-! ### A segment being recorded -/

/-- **The pass deletes the segment being recorded once the cutoff has reached its start.** -/
theorem openSegment_deleted {id startTime : ℤ} {path : String} {config : RecordConfig}
    (hrow : (id, Recorder.newSegment channelId startTime path config) ∈ r.index.segments.rows)
    (hzero : 0 ≤ startTime) (hstart : startTime ≤ cutoffMs now quota) :
    (id, Recorder.newSegment channelId startTime path config) ∉
      (cleanByAge fails channelId now quota r).index.segments.rows := by
  intro hleft
  have hgone := ((cleanByAge_spec fails channelId now quota r).mem.mp hleft).2
  have hold : (id, Recorder.newSegment channelId startTime path config) ∈
      (order channelId r).filter (old now quota) := by
    refine List.mem_filter.mpr ⟨mem_order.mpr ⟨hrow, rfl⟩, ?_⟩
    rw [old, decide_eq_true_eq]
    exact ⟨hstart, hzero⟩
  exact hgone (List.mem_map_of_mem hold)

end LoongNvr.Storage.StorageCleaner
