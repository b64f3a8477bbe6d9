import LoongNvr.Rules.IouTracker
import Mathlib.Data.List.Perm.Subperm

/-!
# Rules — TrackLifetime

How long `IouTracker` keeps a track.  The missing counter of a track is advanced only while the
track is active, and it is deactivated when the counter passes `max_frames_missing`; the removal
predicate asks for twice that.

* `lifetime`: an active track's counter is the number of calls that have not matched it; an
  inactive track's counter stands one above the limit.
* `inactive_persists`: so an inactive track is never removed.
* `tracksForgotten_iff`: dead tracks are forgotten, and the track list bounded by the recent
  detections, in exactly the runs in which no track is deactivated more than
  `max_frames_missing` calls before the end.

A run is the list of its calls, the latest first.
-/

namespace LoongNvr.Rules.IouTracker
open LoongNvr.Core Support

variable (config : Config) (srt : PairSorter)

/-- The tracker after the calls. -/
def trackerAfter : List (List Detection) → IouTracker
  | [] => { config := config }
  | detections :: past => update srt (trackerAfter past) detections

/-- How many calls in a row, up to the latest, have not matched or created the track. -/
def unmatchedCalls : List (List Detection) → ℤ → ℕ
  | [], _ => 0
  | detections :: past, trackId =>
      if trackId ∈ touchedIds srt (trackerAfter config srt past) detections then 0
      else unmatchedCalls past trackId + 1

/-- In every state of the run a track is there only while it has been without a match for at most
`2 * max_frames_missing` calls, and the tracks are at most as many as the detections of the last
`2 * max_frames_missing + 1` calls. -/
def TracksForgotten (hist : List (List Detection)) : Prop :=
  ∀ past, past <:+ hist →
    (∀ track ∈ (trackerAfter config srt past).tracks,
      (unmatchedCalls config srt past track.trackId : ℤ) ≤ 2 * config.maxFramesMissing) ∧
    (trackerAfter config srt past).tracks.length ≤
      ((past.take (2 * config.maxFramesMissing.toNat + 1)).map List.length).sum

/-! ### The counter -/

@[simp] theorem trackerAfter_config (past : List (List Detection)) :
    (trackerAfter config srt past).config = config := by
  induction past with
  | nil => rfl
  | cons detections past ih => exact ih

theorem trackerAfter_wellNumbered (past : List (List Detection)) :
    WellNumbered (trackerAfter config srt past) := by
  induction past with
  | nil => exact ⟨.nil, fun _ h => absurd h List.not_mem_nil⟩
  | cons detections past ih => exact update_wellNumbered ih

/-- What a track's fields say about the calls since it was last matched. -/
def Lifetime (past : List (List Detection)) (track : TrackedObject) : Prop :=
  if track.active then
    track.framesMissing = unmatchedCalls config srt past track.trackId ∧
      track.framesMissing ≤ config.maxFramesMissing
  else
    track.framesMissing = config.maxFramesMissing + 1 ∧
      config.maxFramesMissing + 1 ≤ unmatchedCalls config srt past track.trackId

section

variable {config srt}

theorem unmatchedCalls_touched {past : List (List Detection)} {detections : List Detection}
    {trackId : ℤ} (h : trackId ∈ touchedIds srt (trackerAfter config srt past) detections) :
    unmatchedCalls config srt (detections :: past) trackId = 0 := if_pos h

theorem unmatchedCalls_missed {past : List (List Detection)} {detections : List Detection}
    {trackId : ℤ} (h : trackId ∉ touchedIds srt (trackerAfter config srt past) detections) :
    unmatchedCalls config srt (detections :: past) trackId =
      unmatchedCalls config srt past trackId + 1 := if_neg h

/-- A call that misses a track keeps `Lifetime`. -/
theorem Lifetime.missed {past : List (List Detection)} {detections : List Detection}
    {track : TrackedObject} (h : Lifetime config srt past track)
    (hmiss : track.trackId ∉ touchedIds srt (trackerAfter config srt past) detections) :
    Lifetime config srt (detections :: past) (ageTrack config track false) := by
  simp only [Lifetime] at h ⊢
  rw [ageTrack_trackId, unmatchedCalls_missed hmiss]
  by_cases hact : track.active = true
  · rw [if_pos hact] at h
    obtain ⟨hcount, hle⟩ := h
    by_cases hpass : track.framesMissing + 1 > config.maxFramesMissing
    · -- the counter passes the limit, and the track is deactivated with it one above
      have hdead : (ageTrack config track false).active = false := by
        simp [ageTrack, hact, hpass]
      have hframes : (ageTrack config track false).framesMissing = track.framesMissing + 1 := by
        simp [ageTrack, hact]
      rw [if_neg (by simp [hdead]), hframes]
      push_cast
      omega
    · have halive : (ageTrack config track false).active = true := by
        simp [ageTrack, hact, hpass]
      have hframes : (ageTrack config track false).framesMissing = track.framesMissing + 1 := by
        simp [ageTrack, hact]
      rw [if_pos halive, hframes]
      push_cast
      omega
  · -- an inactive track is not aged
    have hsame : ageTrack config track false = track := by
      simp [ageTrack, Bool.not_eq_true _ ▸ hact]
    rw [hsame]
    rw [if_neg hact] at h ⊢
    push_cast
    omega

/-- **The counter**, in every state: exact while a track is active, stuck one above the limit
afterwards. -/
theorem lifetime (hM : 0 ≤ config.maxFramesMissing) (past : List (List Detection)) :
    ∀ track ∈ (trackerAfter config srt past).tracks, Lifetime config srt past track := by
  induction past with
  | nil => exact fun _ h => absurd h List.not_mem_nil
  | cons detections past ih =>
      intro track ht
      rcases mem_update (trackerAfter_wellNumbered config srt past) ht with
        ⟨htouch, hact, hzero⟩ | ⟨hmiss, old, ho, rfl⟩
      · rw [Lifetime, if_pos hact, unmatchedCalls_touched htouch, hzero]
        exact ⟨rfl, hM⟩
      · rw [trackerAfter_config, ageTrack_trackId] at hmiss
        rw [trackerAfter_config]
        exact (ih old ho).missed hmiss

/-! ### Inactive tracks -/

theorem inactive_framesMissing (hM : 0 ≤ config.maxFramesMissing) {past : List (List Detection)}
    {track : TrackedObject} (ht : track ∈ (trackerAfter config srt past).tracks)
    (hact : track.active = false) :
    track.framesMissing = config.maxFramesMissing + 1 ∧
      config.maxFramesMissing + 1 ≤ unmatchedCalls config srt past track.trackId := by
  have h := lifetime hM past track ht
  rwa [Lifetime, if_neg (by simp [hact])] at h

/-- **An inactive track is never removed**: its counter never reaches the removal bound. -/
theorem inactive_persists (hM : 1 ≤ config.maxFramesMissing) {past : List (List Detection)}
    {track : TrackedObject} (ht : track ∈ (trackerAfter config srt past).tracks)
    (hact : track.active = false) (later : List (List Detection)) :
    track ∈ (trackerAfter config srt (later ++ past)).tracks ∧
      config.maxFramesMissing + 1 + later.length ≤
        unmatchedCalls config srt (later ++ past) track.trackId := by
  induction later with
  | nil => exact ⟨ht, by simpa using (inactive_framesMissing (by omega) ht hact).2⟩
  | cons detections later ih =>
      obtain ⟨hmem, hcalls⟩ := ih
      have hframes := (inactive_framesMissing (by omega) hmem hact).1
      obtain ⟨hkept, hmiss⟩ := mem_update_of_inactive srt detections
        (trackerAfter_wellNumbered config srt (later ++ past)) hmem hact
        (by rw [trackerAfter_config]; omega)
      refine ⟨hkept, ?_⟩
      rw [List.cons_append, unmatchedCalls_missed hmiss, List.length_cons]
      push_cast
      omega

/-- A track missed for `max_frames_missing + 1` calls and `n` more was inactive `n` calls ago. -/
theorem inactive_since (hM : 0 ≤ config.maxFramesMissing) {past : List (List Detection)}
    {track : TrackedObject} (ht : track ∈ (trackerAfter config srt past).tracks) (n : ℕ)
    (h : config.maxFramesMissing + 1 + n ≤ unmatchedCalls config srt past track.trackId) :
    ∃ old ∈ (trackerAfter config srt (past.drop n)).tracks, old.active = false := by
  induction past generalizing track n with
  | nil => exact absurd ht List.not_mem_nil
  | cons detections past ih =>
      rcases mem_update (trackerAfter_wellNumbered config srt past) ht with
        ⟨htouch, -, -⟩ | ⟨hmiss, old, ho, rfl⟩
      · rw [unmatchedCalls_touched htouch] at h
        push_cast at h
        omega
      · rw [trackerAfter_config, ageTrack_trackId] at hmiss
        rw [trackerAfter_config, ageTrack_trackId, unmatchedCalls_missed hmiss] at h
        cases n with
        | zero =>
            -- an active track's counter is within the limit
            refine ⟨_, ht, ?_⟩
            have hlife := (lifetime hM past old ho).missed hmiss
            rw [trackerAfter_config]
            by_contra hact
            rw [Bool.not_eq_false] at hact
            rw [Lifetime, if_pos hact, ageTrack_trackId, unmatchedCalls_missed hmiss] at hlife
            push_cast at h hlife
            omega
        | succ n => exact ih ho n (by push_cast at h ⊢; omega)

/-! ### How many tracks there are -/

/-- The ids the last `n` calls matched or created. -/
def recentIds (config : Config) (srt : PairSorter) : List (List Detection) → ℕ → List ℤ
  | _, 0 => []
  | [], _ => []
  | detections :: past, n + 1 =>
      touchedIds srt (trackerAfter config srt past) detections ++ recentIds config srt past n

theorem recentIds_length (past : List (List Detection)) (n : ℕ) :
    (recentIds config srt past n).length = ((past.take n).map List.length).sum := by
  induction past generalizing n with
  | nil => cases n <;> rfl
  | cons detections past ih =>
      cases n with
      | zero => rfl
      | succ n => simp [recentIds, touchedIds_length, ih]

theorem mem_recentIds {past : List (List Detection)} {track : TrackedObject}
    (ht : track ∈ (trackerAfter config srt past).tracks) {n : ℕ}
    (h : unmatchedCalls config srt past track.trackId < n) :
    track.trackId ∈ recentIds config srt past n := by
  induction past generalizing track n with
  | nil => exact absurd ht List.not_mem_nil
  | cons detections past ih =>
      obtain ⟨n, rfl⟩ : ∃ k, n = k + 1 := ⟨n - 1, by omega⟩
      rcases mem_update (trackerAfter_wellNumbered config srt past) ht with
        ⟨htouch, -, -⟩ | ⟨hmiss, old, ho, rfl⟩
      · exact List.mem_append_left _ htouch
      · rw [trackerAfter_config, ageTrack_trackId] at hmiss ⊢
        rw [trackerAfter_config, ageTrack_trackId, unmatchedCalls_missed hmiss] at h
        exact List.mem_append_right _ (ih ho (by omega))

/-- Tracks all matched within the last `n` calls are at most as many as the detections in
them. -/
theorem length_le_recent {past : List (List Detection)} {n : ℕ}
    (h : ∀ track ∈ (trackerAfter config srt past).tracks,
      unmatchedCalls config srt past track.trackId < n) :
    (trackerAfter config srt past).tracks.length ≤ ((past.take n).map List.length).sum := by
  have hnodup : ((trackerAfter config srt past).tracks.map (·.trackId)).Nodup :=
    List.pairwise_map.mpr ((trackerAfter_wellNumbered config srt past).sorted.imp ne_of_lt)
  have hsub : (trackerAfter config srt past).tracks.map (·.trackId) ⊆ recentIds config srt past n :=
    fun id hid => by
      obtain ⟨track, ht, rfl⟩ := List.mem_map.mp hid
      exact mem_recentIds ht (h track ht)
  simpa [recentIds_length] using (hnodup.subperm hsub).length_le

end

/-! ### When dead tracks are forgotten -/

variable {config}

/-- **Dead tracks are forgotten** exactly when no call, the last `max_frames_missing` apart,
leaves an inactive track behind. -/
theorem tracksForgotten_iff (hM : 1 ≤ config.maxFramesMissing) (hist : List (List Detection)) :
    TracksForgotten config srt hist ↔
      ∀ track ∈ (trackerAfter config srt (hist.drop config.maxFramesMissing.toNat)).tracks,
        track.active = true := by
  constructor
  · intro h track ht
    by_contra hact
    rw [Bool.not_eq_true] at hact
    by_cases hlen : config.maxFramesMissing.toNat ≤ hist.length
    · -- it is still there at the end, missed for `max_frames_missing` calls more
      obtain ⟨hmem, hcalls⟩ := inactive_persists hM ht hact
        (hist.take config.maxFramesMissing.toNat)
      rw [List.take_append_drop] at hmem hcalls
      rw [List.length_take_of_le hlen] at hcalls
      have := (h hist List.suffix_rfl).1 track hmem
      omega
    · rw [List.drop_eq_nil_of_le (by omega)] at ht
      exact absurd ht List.not_mem_nil
  · intro h past hpast
    have hcalls : ∀ track ∈ (trackerAfter config srt past).tracks,
        (unmatchedCalls config srt past track.trackId : ℤ) ≤ 2 * config.maxFramesMissing := by
      intro track ht
      by_contra hmany
      rw [not_le] at hmany
      obtain ⟨newer, rfl⟩ := hpast
      -- inactive long enough to have been so before the last calls of the whole run
      obtain ⟨old, ho, hact⟩ := inactive_since (by omega) ht config.maxFramesMissing.toNat
        (by omega)
      set earlier := past.drop config.maxFramesMissing.toNat with hearlier
      have hsuffix : earlier <:+ (newer ++ past).drop config.maxFramesMissing.toNat := by
        rw [List.drop_append]
        exact (List.drop_suffix_drop_left past (Nat.sub_le _ _)).trans (List.suffix_append _ _)
      obtain ⟨between, hbetween⟩ := hsuffix
      have hstill := (inactive_persists hM ho hact between).1
      rw [hbetween] at hstill
      exact Bool.false_ne_true (hact.symm.trans (h old hstill))
    exact ⟨hcalls, length_le_recent fun track ht => by have := hcalls track ht; omega⟩

/-- A person, seen in one call only. -/
def passerBy : Detection where
  x1 := 10
  y1 := 10
  x2 := 20
  y2 := 30
  confidence := 9 / 10
  classId := 0
  className := "person"

/-- One call that sees the passer-by and one that does not forget in time. -/
theorem tracksForgotten_of_two_calls :
    TracksForgotten { maxFramesMissing := 1 } byIou [[], [passerBy]] :=
  (@tracksForgotten_iff { maxFramesMissing := 1 } byIou (by decide) [[], [passerBy]]).mpr
    (by decide +kernel)

/-- With a limit of one missing frame the passer-by is still there after three calls without. -/
theorem not_tracksForgotten : ¬ TracksForgotten { maxFramesMissing := 1 } byIou
    [[], [], [], [passerBy]] := by
  intro h
  have hcalls := (h _ List.suffix_rfl).1
  revert hcalls
  decide +kernel

end LoongNvr.Rules.IouTracker
