import LoongNvr.Rules.FrameRuns
import LoongNvr.Rules.StableMatching
import LoongNvr.Support.Emitted
import LoongNvr.Support.Keyed

/-!
# Rules — TrackLife

What becomes of one track id from frame to frame.  The id is not given, then a track is created
under it, seen again and missed, and perhaps removed; then it does not come back.

* `lifeStep_update`: what a call of the tracker makes of an id.
* `life_views`: what a run of frames makes of it.
-/

namespace LoongNvr.Rules.IouTracker
open LoongNvr.Core Support
open RuleEngine (RuleFrame)

/-- What stands under an id: nothing yet, a track, or nothing any more. -/
inductive Stage
  | unborn
  | present (track : TrackedObject)
  | gone

/-- The track, if there is one. -/
def Stage.track : Stage → Option TrackedObject
  | .present track => some track
  | _ => none

@[simp] theorem Stage.track_present (track : TrackedObject) :
    (Stage.present track).track = some track := rfl

@[simp] theorem Stage.track_gone : Stage.gone.track = none := rfl

def stageOf (tracker : IouTracker) (trackId : ℤ) : Stage :=
  match tracker.getTrack trackId with
  | some track => .present track
  | none => if tracker.nextTrackId ≤ trackId then .unborn else .gone

/-- What a call with these detections can make of an id. -/
inductive LifeStep (config : Config) (trackId : ℤ) (detections : List Detection) :
    Stage → Stage → Prop
  | unborn : LifeStep config trackId detections .unborn .unborn
  | born (det : Detection) (hdet : det ∈ detections) :
      LifeStep config trackId detections .unborn (.present (newTrack trackId det))
  | seen (old : TrackedObject) (det : Detection) (hactive : old.active = true)
      (hdet : det ∈ detections) :
      LifeStep config trackId detections (.present old) (.present (extendTrack config det old))
  | missed (old : TrackedObject) :
      LifeStep config trackId detections (.present old) (.present (ageTrack config old false))
  | removed (old : TrackedObject) : LifeStep config trackId detections (.present old) .gone
  | gone : LifeStep config trackId detections .gone .gone

/-! ### A track by its id -/

theorem WellNumbered.nodup_trackIds {tracker : IouTracker} (hn : WellNumbered tracker) :
    (tracker.tracks.map (·.trackId)).Nodup :=
  List.pairwise_map.mpr (hn.sorted.imp fun h => ne_of_lt h)

theorem getTrack_eq_some_iff {tracker : IouTracker} (hn : WellNumbered tracker) {trackId : ℤ}
    {track : TrackedObject} :
    tracker.getTrack trackId = some track ↔ track ∈ tracker.tracks ∧ track.trackId = trackId :=
  find?_key_eq_some_iff hn.nodup_trackIds

theorem getTrack_eq_none_iff {tracker : IouTracker} {trackId : ℤ} :
    tracker.getTrack trackId = none ↔ ∀ track ∈ tracker.tracks, track.trackId ≠ trackId := by
  rw [getTrack, List.find?_eq_none]
  simp

@[simp] theorem stageOf_track (tracker : IouTracker) (trackId : ℤ) :
    (stageOf tracker trackId).track = tracker.getTrack trackId := by
  rw [stageOf]
  cases tracker.getTrack trackId with
  | some track => rfl
  | none =>
      dsimp only
      split <;> rfl

theorem stageOf_eq_present {tracker : IouTracker} {trackId : ℤ} {track : TrackedObject}
    (h : tracker.getTrack trackId = some track) : stageOf tracker trackId = .present track := by
  rw [stageOf, h]

theorem stageOf_of_none {tracker : IouTracker} {trackId : ℤ}
    (h : tracker.getTrack trackId = none) :
    stageOf tracker trackId = if tracker.nextTrackId ≤ trackId then .unborn else .gone := by
  rw [stageOf, h]

theorem nextTrackId_le_update (srt : PairSorter) (tracker : IouTracker)
    (detections : List Detection) :
    tracker.nextTrackId ≤ (update srt tracker detections).nextTrackId :=
  le_add_of_nonneg_right (Int.natCast_nonneg _)

/-- A created track is there. -/
theorem getTrack_update_ne_none {srt : PairSorter} {tracker : IouTracker}
    {detections : List Detection} {trackId : ℤ} (hlow : tracker.nextTrackId ≤ trackId)
    (hhigh : trackId < (update srt tracker detections).nextTrackId) :
    (update srt tracker detections).getTrack trackId ≠ none := by
  have hcreated : trackId ∈ createdIds srt tracker detections := by
    obtain ⟨i, hi⟩ := Int.le.dest hlow
    refine List.mem_mapIdx.mpr ⟨i, ?_, hi⟩
    simp only [update] at hhigh
    omega
  obtain ⟨kept, -, hids⟩ := map_trackId_update srt tracker detections
  have hmem : trackId ∈ (update srt tracker detections).tracks.map (·.trackId) := by
    rw [hids]
    exact List.mem_append_right _ hcreated
  obtain ⟨track, htrack, hid⟩ := List.mem_map.mp hmem
  exact fun h => getTrack_eq_none_iff.mp h track htrack hid

/-- **A call, seen from one id.** -/
theorem lifeStep_update (srt : PairSorter) {tracker : IouTracker} (hn : WellNumbered tracker)
    (detections : List Detection) (trackId : ℤ) :
    LifeStep tracker.config trackId detections (stageOf tracker trackId)
      (stageOf (update srt tracker detections) trackId) := by
  have hgrow := nextTrackId_le_update srt tracker detections
  cases hafter : (update srt tracker detections).getTrack trackId with
  | some track =>
      obtain ⟨hmem, rfl⟩ := (getTrack_eq_some_iff (update_wellNumbered hn)).mp hafter
      rw [stageOf_eq_present hafter]
      rcases mem_update_cases hmem with ⟨old, hold, hactive, det, hdet, rfl⟩ | ⟨old, hold, rfl⟩ |
        hcreated
      · have hbefore : tracker.getTrack (extendTrack tracker.config det old).trackId = some old :=
          (getTrack_eq_some_iff hn).mpr ⟨hold, rfl⟩
        rw [stageOf_eq_present hbefore]
        exact .seen old det hactive hdet
      · rw [stageOf_eq_present
          ((getTrack_eq_some_iff hn).mpr ⟨hold, (ageTrack_trackId _ _ _).symm⟩)]
        exact .missed old
      · obtain ⟨hlow, d, hd, -⟩ := mem_createdTracks hcreated
        obtain ⟨i, hi, rfl⟩ := List.mem_mapIdx.mp hcreated
        have hnone : tracker.getTrack (tracker.nextTrackId + i) = none :=
          getTrack_eq_none_iff.mpr fun old hold hid =>
            absurd (hn.below old hold) (hid ▸ not_lt_of_ge hlow)
        have hbefore : stageOf tracker (tracker.nextTrackId + i) = .unborn :=
          (stageOf_of_none hnone).trans (if_pos hlow)
        simp only [newTrack, hbefore]
        exact .born _ (List.mem_of_getElem? hd)
  | none =>
      cases hbefore : tracker.getTrack trackId with
      | some old =>
          obtain ⟨hold, rfl⟩ := (getTrack_eq_some_iff hn).mp hbefore
          have hbelow := hn.below old hold
          rw [stageOf_eq_present hbefore, stageOf_of_none hafter, if_neg (by omega)]
          exact .removed old
      | none =>
          rw [stageOf_of_none hbefore, stageOf_of_none hafter]
          by_cases hlow : tracker.nextTrackId ≤ trackId
          · have hhigh : (update srt tracker detections).nextTrackId ≤ trackId := by
              by_contra hlt
              exact getTrack_update_ne_none hlow (not_le.mp hlt) hafter
            rw [if_pos hlow, if_pos hhigh]
            exact .unborn
          · rw [if_neg hlow, if_neg (by omega)]
            exact .gone

/-! ### Runs -/

/-- What a frame shows of an id. -/
abbrev View := FrameContext × Option TrackedObject

/-- A frame of a rule's detections, with what stands under an id after it. -/
def viewStep (srt : PairSorter) (rule : AnalysisRule) (trackId : ℤ) (tracker : IouTracker)
    (frame : RuleFrame) : IouTracker × List View :=
  let after := update srt tracker (filterDetections rule frame.1)
  (after, [(frame.2, after.getTrack trackId)])

/-- What the frames show of an id. -/
def views (srt : PairSorter) (rule : AnalysisRule) (trackId : ℤ) :
    IouTracker → List RuleFrame → List View :=
  emitted (viewStep srt rule trackId)

/-- What can be shown of an id, from a stage of its life on. -/
inductive Life (config : Config) (trackId : ℤ) : Stage → List View → Prop
  | nil (stage : Stage) : Life config trackId stage []
  | cons {stage next : Stage} {shown : List View} (context : FrameContext)
      (detections : List Detection) (hstep : LifeStep config trackId detections stage next)
      (hlater : Life config trackId next shown) :
      Life config trackId stage ((context, next.track) :: shown)

/-- **The frames of a run show a life.** -/
theorem life_views (srt : PairSorter) (rule : AnalysisRule) (trackId : ℤ) (frames : List RuleFrame)
    {tracker : IouTracker} (hn : WellNumbered tracker) :
    Life tracker.config trackId (stageOf tracker trackId)
      (views srt rule trackId tracker frames) := by
  induction frames generalizing tracker with
  | nil => exact .nil _
  | cons frame frames ih =>
      have hlater := @ih (update srt tracker (filterDetections rule frame.1))
        (update_wellNumbered hn)
      have hfirst := Life.cons frame.2 _
        (lifeStep_update srt hn (filterDetections rule frame.1) trackId) hlater
      rwa [stageOf_track] at hfirst

/-- The contexts of the views are those of the frames. -/
theorem forall_views {srt : PairSorter} {rule : AnalysisRule} {trackId : ℤ}
    {P : FrameContext → Prop} {frames : List RuleFrame} {tracker : IouTracker}
    (h : ∀ frame ∈ frames, P frame.2) :
    ∀ view ∈ views srt rule trackId tracker frames, P view.1 := by
  induction frames generalizing tracker with
  | nil => exact fun _ hview => absurd hview List.not_mem_nil
  | cons frame frames ih =>
      obtain ⟨hfirst, hrest⟩ := List.forall_mem_cons.mp h
      exact List.forall_mem_cons.mpr ⟨hfirst, ih hrest⟩

/-- A new tracker. -/
theorem wellNumbered_new (config : Config) : WellNumbered { config := config } :=
  ⟨List.Pairwise.nil, fun _ h => absurd h List.not_mem_nil⟩

end LoongNvr.Rules.IouTracker
