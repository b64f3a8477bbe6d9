import LoongNvr.Rules.Types
import LoongNvr.Support.Sorter
import Mathlib.Data.Rat.Lemmas
import Mathlib.Algebra.Order.Ring.Rat
import Mathlib.Tactic.Ring

/-!
# Rules — IouTracker

`IouTracker::Update` and the geometry it uses.  The pairs it assigns are sorted by `std::sort`,
so the tracker takes a `Sorter` for them.

* `assign_isMatching`: what the greedy loop leaves, however the pairs are sorted: as many tracks
  as detections are flagged, flagged tracks are active ones, the others are as they were.
* `touchedIds`: the ids a call matches or creates, one for each detection
  (`touchedIds_length`).
* `mem_update`: a track after a call is one of these, seen in this very call, or a track of
  before with one more missing frame.
* `mem_update_of_inactive`: an inactive track that is not long dead stays as it is.
* `update_wellNumbered`: ids stay distinct.
-/

namespace LoongNvr.Rules
open LoongNvr.Core Support

namespace IouTracker

/-- `IouTracker::Config` -/
structure Config where
  iouThreshold : ℚ := 1 / 4
  maxFramesMissing : ℤ := 10
  maxTrajectoryPoints : ℤ := 60
  deriving DecidableEq, Repr

/-- `IouTracker::ComputeIou` -/
def computeIou (a b : Detection) : ℚ :=
  let x1 := max a.x1 b.x1
  let y1 := max a.y1 b.y1
  let x2 := min a.x2 b.x2
  let y2 := min a.y2 b.y2
  let interArea := max 0 (x2 - x1) * max 0 (y2 - y1)
  let areaA := (a.x2 - a.x1) * (a.y2 - a.y1)
  let areaB := (b.x2 - b.x1) * (b.y2 - b.y1)
  let unionArea := areaA + areaB - interArea
  if unionArea ≤ 0 then 0 else interArea / unionArea

/-- `IouTracker::DetectionCenter`, in absolute coordinates. -/
def detectionCenter (det : Detection) : Point2D where
  x := (det.x1 + det.x2) * (1 / 2)
  y := (det.y1 + det.y2) * (1 / 2)

/-- `IouTracker::NormalizePoint` -/
def normalizePoint (pt : Point2D) (width height : ℤ) : Point2D :=
  if width ≤ 0 ∨ height ≤ 0 then pt else { x := pt.x / width, y := pt.y / height }

/-- A track and a detection that overlap enough, by their positions. -/
structure IouPair where
  trackIdx : ℕ
  detIdx : ℕ
  iou : ℚ
  deriving DecidableEq, Repr

end IouTracker

open IouTracker

/-- The tracker's state. -/
structure IouTracker where
  config : Config := {}
  tracks : List TrackedObject := []
  nextTrackId : ℤ := 1
  deriving DecidableEq, Repr

namespace IouTracker

/-- How the tracker sorts its pairs, the largest overlap first. -/
abbrev PairSorter := Sorter fun a b : IouPair => a.iou > b.iou

/-- The tracker's sort as an insertion sort. -/
def byIou : PairSorter := Sorter.byKeyDesc IouPair.iou

/-- The pairs of an active track and a detection that reach the threshold, row by row. -/
def buildPairs (config : Config) (tracks : List TrackedObject) (detections : List Detection) :
    List IouPair :=
  tracks.zipIdx.flatMap fun (track, t) =>
    if track.active then
      detections.zipIdx.filterMap fun (det, d) =>
        let iou := computeIou track.lastDetection det
        if iou ≥ config.iouThreshold then some ⟨t, d, iou⟩ else none
    else []

/-- The tracks and the two arrays of flags during the assignment. -/
structure Matching where
  tracks : List TrackedObject
  trackMatched : List Bool
  detMatched : List Bool

/-- What the assignment of a detection does to a track. -/
def extendTrack (config : Config) (det : Detection) (track : TrackedObject) : TrackedObject :=
  let trajectory := track.trajectory ++ [detectionCenter det]
  { track with
    lastDetection := det
    framesMissing := 0
    age := track.age + 1
    trajectory :=
      if (trajectory.length : ℤ) > config.maxTrajectoryPoints then trajectory.tail else trajectory }

/-- One turn of the greedy loop. -/
def assignPair (config : Config) (detections : List Detection) (m : Matching) (pair : IouPair) :
    Matching :=
  if m.trackMatched.getD pair.trackIdx false || m.detMatched.getD pair.detIdx false then m
  else
    match detections[pair.detIdx]? with
    | none => m -- the pair holds the position of a detection
    | some det =>
        { tracks := m.tracks.modify pair.trackIdx (extendTrack config det)
          trackMatched := m.trackMatched.set pair.trackIdx true
          detMatched := m.detMatched.set pair.detIdx true }

/-- The greedy assignment, from no flag set. -/
def assign (srt : PairSorter) (tracker : IouTracker) (detections : List Detection) : Matching :=
  let m : Matching :=
    { tracks := tracker.tracks
      trackMatched := List.replicate tracker.tracks.length false
      detMatched := List.replicate detections.length false }
  if tracker.tracks.length > 0 ∧ detections.length > 0 then
    (srt.sort (buildPairs tracker.config tracker.tracks detections)).foldl
      (assignPair tracker.config detections) m
  else m

/-- The increment of the missing counter of an unmatched track. -/
def ageTrack (config : Config) (track : TrackedObject) (matched : Bool) : TrackedObject :=
  if !track.active then track
  else if !matched then
    let framesMissing := track.framesMissing + 1
    { track with
      framesMissing := framesMissing
      active := if framesMissing > config.maxFramesMissing then false else track.active }
  else track

/-- The detections no track was given. -/
def unmatchedDetections (detections : List Detection) (detMatched : List Bool) : List Detection :=
  ((detections.zip detMatched).filter fun p => !p.2).map (·.1)

/-- A track created for a detection. -/
def newTrack (trackId : ℤ) (det : Detection) : TrackedObject :=
  { trackId := trackId, lastDetection := det, age := 1, framesMissing := 0, active := true,
    trajectory := [detectionCenter det] }

/-- The removal predicate. -/
def longDead (config : Config) (track : TrackedObject) : Bool :=
  !track.active && decide (track.framesMissing > config.maxFramesMissing * 2)

/-- `IouTracker::Update` -/
def update (srt : PairSorter) (tracker : IouTracker) (detections : List Detection) : IouTracker :=
  let m := assign srt tracker detections
  let aged := (m.tracks.zip m.trackMatched).map fun (track, matched) =>
    ageTrack tracker.config track matched
  let unmatched := unmatchedDetections detections m.detMatched
  let created := unmatched.mapIdx fun i det => newTrack (tracker.nextTrackId + i) det
  { tracker with
    tracks := (aged ++ created).filter fun track => !longDead tracker.config track
    nextTrackId := tracker.nextTrackId + unmatched.length }

/-- `IouTracker::GetTrack` -/
def getTrack (tracker : IouTracker) (trackId : ℤ) : Option TrackedObject :=
  tracker.tracks.find? fun track => track.trackId == trackId

/-- `IouTracker::Reset` -/
def reset (tracker : IouTracker) : IouTracker := { tracker with tracks := [], nextTrackId := 1 }

/-- `IouTracker::ActiveCount` -/
def activeCount (tracker : IouTracker) : ℕ := tracker.tracks.countP (·.active)

@[simp] theorem ageTrack_trackId (config : Config) (track : TrackedObject) (matched : Bool) :
    (ageTrack config track matched).trackId = track.trackId := by
  simp only [ageTrack]
  split
  · rfl
  · split <;> rfl

/-! ### The assignment -/

/-- How a track stands to what it was before the greedy loop, by its flag. -/
def Assigned (old track : TrackedObject) : Bool → Prop
  | true => track.trackId = old.trackId ∧ old.active = true ∧ track.active = true ∧
      track.framesMissing = 0
  | false => track = old

theorem Assigned.trackId_eq {old track : TrackedObject} : ∀ {matched : Bool},
    Assigned old track matched → track.trackId = old.trackId
  | true, h => h.1
  | false, h => h ▸ rfl

/-- What the greedy loop keeps true of its tracks and flags. -/
structure IsMatching (tracker : IouTracker) (detections : List Detection) (m : Matching) :
    Prop where
  tracks_length : m.tracks.length = tracker.tracks.length
  flags_length : m.trackMatched.length = tracker.tracks.length
  det_length : m.detMatched.length = detections.length
  count_eq : m.trackMatched.count true = m.detMatched.count true
  row : ∀ (i : ℕ) (old track : TrackedObject) (matched : Bool), tracker.tracks[i]? = some old →
    m.tracks[i]? = some track → m.trackMatched[i]? = some matched → Assigned old track matched

theorem mem_buildPairs {config : Config} {tracks : List TrackedObject}
    {detections : List Detection} {pair : IouPair}
    (h : pair ∈ buildPairs config tracks detections) :
    (∃ track, tracks[pair.trackIdx]? = some track ∧ track.active = true) ∧
      pair.detIdx < detections.length := by
  simp only [buildPairs, List.mem_flatMap] at h
  obtain ⟨⟨track, t⟩, htrack, hmem⟩ := h
  by_cases hact : track.active = true
  · rw [if_pos hact, List.mem_filterMap] at hmem
    obtain ⟨⟨det, d⟩, hdet, hsome⟩ := hmem
    have ht : tracks[t]? = some track := List.mem_zipIdx_iff_getElem?.mp htrack
    have hd : detections[d]? = some det := List.mem_zipIdx_iff_getElem?.mp hdet
    dsimp only at hsome
    split at hsome
    · cases hsome
      exact ⟨⟨track, ht, hact⟩, (List.getElem?_eq_some_iff.mp hd).1⟩
    · cases hsome
  · rw [if_neg hact] at hmem
    cases hmem

/-- Setting one clear flag makes one more. -/
theorem count_set_true {flags : List Bool} {i : ℕ} (hi : i < flags.length)
    (h : flags.getD i false = false) : (flags.set i true).count true = flags.count true + 1 := by
  have hget : flags[i] = false := by
    rwa [List.getD_eq_getElem?_getD, List.getElem?_eq_getElem hi, Option.getD_some] at h
  rw [List.count, List.countP_set hi]
  simp [hget]

theorem assignPair_isMatching {tracker : IouTracker} {detections : List Detection} {m : Matching}
    {pair : IouPair} (hm : IsMatching tracker detections m)
    (hpair : pair ∈ buildPairs tracker.config tracker.tracks detections) :
    IsMatching tracker detections (assignPair tracker.config detections m pair) := by
  obtain ⟨⟨old, hold, hact⟩, hdet⟩ := mem_buildPairs hpair
  have htrack : pair.trackIdx < tracker.tracks.length := (List.getElem?_eq_some_iff.mp hold).1
  simp only [assignPair]
  by_cases hflag : (m.trackMatched.getD pair.trackIdx false ||
      m.detMatched.getD pair.detIdx false) = true
  · rwa [if_pos hflag]
  · rw [if_neg hflag, List.getElem?_eq_getElem hdet]
    rw [Bool.not_eq_true, Bool.or_eq_false_iff] at hflag
    obtain ⟨hclear, hclearDet⟩ := hflag
    have hti : pair.trackIdx < m.trackMatched.length := by rw [hm.flags_length]; exact htrack
    have hdi : pair.detIdx < m.detMatched.length := by rw [hm.det_length]; exact hdet
    refine ⟨by simpa using hm.tracks_length, by simpa using hm.flags_length,
      by simpa using hm.det_length, ?_, fun i old' track matched ho ht hb => ?_⟩
    · rw [count_set_true hti hclear, count_set_true hdi hclearDet, hm.count_eq]
    · dsimp only at ht hb
      by_cases e : pair.trackIdx = i
      · -- the row just matched, which was not before
        subst e
        obtain ⟨track₀, ht₀, rfl⟩ : ∃ track₀, m.tracks[pair.trackIdx]? = some track₀ ∧
            extendTrack tracker.config detections[pair.detIdx] track₀ = track := by
          rw [List.getElem?_modify_eq] at ht
          exact Option.map_eq_some_iff.mp ht
        obtain rfl : matched = true := by
          rw [List.getElem?_set_self hti] at hb
          exact (Option.some.inj hb).symm
        have hunflagged : m.trackMatched[pair.trackIdx]? = some false := by
          rw [List.getElem?_eq_getElem hti]
          rwa [List.getD_eq_getElem?_getD, List.getElem?_eq_getElem hti, Option.getD_some,
            ← Option.some_inj] at hclear
        obtain rfl : old = old' := Option.some.inj (hold.symm.trans ho)
        have hsame : track₀ = old := hm.row _ old track₀ false ho ht₀ hunflagged
        subst hsame
        exact ⟨rfl, hact, hact, rfl⟩
      · rw [List.getElem?_modify_ne _ _ e] at ht
        rw [List.getElem?_set_ne e] at hb
        exact hm.row i old' track matched ho ht hb

/-- **The greedy loop**, whatever order it takes the pairs in. -/
theorem assign_isMatching (srt : PairSorter) (tracker : IouTracker) (detections : List Detection) :
    IsMatching tracker detections (assign srt tracker detections) := by
  have hclear : IsMatching tracker detections
      { tracks := tracker.tracks
        trackMatched := List.replicate tracker.tracks.length false
        detMatched := List.replicate detections.length false } :=
    { tracks_length := rfl
      flags_length := List.length_replicate
      det_length := List.length_replicate
      count_eq := by simp [List.count_replicate]
      row := fun i old track matched ho ht hb => by
        obtain rfl : matched = false :=
          List.eq_of_mem_replicate (List.mem_of_getElem? hb)
        exact Option.some.inj (ht.symm.trans ho) }
  simp only [assign]
  split
  · have hloop : ∀ pairs : List IouPair,
        (∀ pair ∈ pairs, pair ∈ buildPairs tracker.config tracker.tracks detections) →
        ∀ m, IsMatching tracker detections m →
          IsMatching tracker detections (pairs.foldl (assignPair tracker.config detections) m) := by
      intro pairs
      induction pairs with
      | nil => exact fun _ m hm => hm
      | cons pair pairs ih =>
          exact fun hall m hm => ih (fun p hp => hall p (List.mem_cons_of_mem _ hp)) _
            (assignPair_isMatching hm (hall pair List.mem_cons_self))
    exact hloop _ (fun pair hp => srt.mem.mp hp) _ hclear
  · exact hclear

/-! ### The tracks a call has seen -/

/-- The ids of the tracks a call matches. -/
def matchedIds (srt : PairSorter) (tracker : IouTracker) (detections : List Detection) : List ℤ :=
  let m := assign srt tracker detections
  ((m.tracks.zip m.trackMatched).filter (·.2)).map (·.1.trackId)

/-- The ids of the tracks a call creates. -/
def createdIds (srt : PairSorter) (tracker : IouTracker) (detections : List Detection) : List ℤ :=
  let m := assign srt tracker detections
  (unmatchedDetections detections m.detMatched).mapIdx fun i _ => tracker.nextTrackId + i

/-- The ids a call matches or creates. -/
def touchedIds (srt : PairSorter) (tracker : IouTracker) (detections : List Detection) : List ℤ :=
  matchedIds srt tracker detections ++ createdIds srt tracker detections

/-- Ids grow along the list and stay below the next one. -/
structure WellNumbered (tracker : IouTracker) : Prop where
  sorted : tracker.tracks.Pairwise (·.trackId < ·.trackId)
  below : ∀ track ∈ tracker.tracks, track.trackId < tracker.nextTrackId

/-- Ids tell positions apart. -/
theorem WellNumbered.index_eq {tracker : IouTracker} (hn : WellNumbered tracker) {i j : ℕ}
    {a b : TrackedObject} (ha : tracker.tracks[i]? = some a) (hb : tracker.tracks[j]? = some b)
    (h : a.trackId = b.trackId) : i = j := by
  obtain ⟨hi, rfl⟩ := List.getElem?_eq_some_iff.mp ha
  obtain ⟨hj, rfl⟩ := List.getElem?_eq_some_iff.mp hb
  have hpair := List.pairwise_iff_getElem.mp hn.sorted
  rcases lt_trichotomy i j with hlt | heq | hlt
  · exact absurd h (hpair i j hi hj hlt).ne
  · exact heq
  · exact absurd h (hpair j i hj hi hlt).ne'

/-- The flagged elements of a list are as many as the flags. -/
theorem length_filter_zip {α : Type*} (p : Bool → Bool) : ∀ (l : List α) (flags : List Bool),
    flags.length = l.length → ((l.zip flags).filter fun x => p x.2).length = flags.countP p
  | [], [], _ => rfl
  | a :: l, b :: flags, h => by
      have ih := length_filter_zip p l flags (Nat.succ.inj h)
      by_cases e : p b = true
      · simp [e, ih]
      · simp [e, ih]

section Update

variable (srt : PairSorter) (tracker : IouTracker) (detections : List Detection)

/-- **One id for each detection**, matched or created. -/
theorem touchedIds_length :
    (touchedIds srt tracker detections).length = detections.length := by
  have hm := assign_isMatching srt tracker detections
  have hmatched : (matchedIds srt tracker detections).length =
      (assign srt tracker detections).trackMatched.countP (fun b => b) := by
    rw [matchedIds, List.length_map]
    exact length_filter_zip (fun b => b) _ _ (hm.flags_length.trans hm.tracks_length.symm)
  have hcreated : (createdIds srt tracker detections).length =
      (assign srt tracker detections).detMatched.countP (!·) := by
    rw [createdIds, List.length_mapIdx, unmatchedDetections, List.length_map]
    exact length_filter_zip (!·) _ _ hm.det_length
  have hsplit : (assign srt tracker detections).detMatched.length = _ :=
    List.length_eq_countP_add_countP fun b => b
  have hcount : (assign srt tracker detections).trackMatched.countP (fun b => b) =
      (assign srt tracker detections).detMatched.countP (fun b => b) := by
    simpa [List.count, beq_true] using hm.count_eq
  rw [touchedIds, List.length_append, hmatched, hcreated, hcount, ← hm.det_length, hsplit]
  simp

variable {srt tracker detections}

theorem mem_createdIds {id : ℤ} (h : id ∈ createdIds srt tracker detections) :
    tracker.nextTrackId ≤ id := by
  obtain ⟨i, hi, rfl⟩ := List.mem_mapIdx.mp h
  omega

/-- A track's id is matched exactly when its flag is set. -/
theorem mem_matchedIds_iff (hn : WellNumbered tracker) {i : ℕ} {old track : TrackedObject}
    {matched : Bool} (ho : tracker.tracks[i]? = some old)
    (ht : (assign srt tracker detections).tracks[i]? = some track)
    (hb : (assign srt tracker detections).trackMatched[i]? = some matched) :
    old.trackId ∈ matchedIds srt tracker detections ↔ matched = true := by
  have hm := assign_isMatching srt tracker detections
  have hid := (hm.row i old track matched ho ht hb).trackId_eq
  simp only [matchedIds, List.mem_map, List.mem_filter]
  refine ⟨fun ⟨⟨track', matched'⟩, ⟨hmem, hflag⟩, hid'⟩ => ?_, fun e =>
    ⟨(track, matched), ⟨List.mem_of_getElem? (i := i) ?_, e⟩, hid⟩⟩
  · obtain ⟨j, hj⟩ := List.mem_iff_getElem?.mp hmem
    obtain ⟨ht', hb'⟩ := List.getElem?_zip_eq_some.mp hj
    have hlt : j < tracker.tracks.length := by
      rw [← hm.tracks_length]
      exact (List.getElem?_eq_some_iff.mp ht').1
    have ho' : tracker.tracks[j]? = some tracker.tracks[j] := List.getElem?_eq_getElem hlt
    -- the two rows are of one id, so they are one
    have hij : j = i := hn.index_eq ho' ho
      ((hm.row j _ track' matched' ho' ht' hb').trackId_eq.symm.trans hid')
    subst hij
    obtain rfl : matched' = matched := Option.some.inj (hb'.symm.trans hb)
    exact hflag
  · exact List.getElem?_zip_eq_some.mpr ⟨ht, hb⟩

/-- The rows of the assignment that stand at a track's position. -/
theorem exists_row (srt : PairSorter) (detections : List Detection) {i : ℕ} {old : TrackedObject}
    (ho : tracker.tracks[i]? = some old) :
    ∃ track matched, (assign srt tracker detections).tracks[i]? = some track ∧
      (assign srt tracker detections).trackMatched[i]? = some matched := by
  have hm := assign_isMatching srt tracker detections
  have hi := (List.getElem?_eq_some_iff.mp ho).1
  exact ⟨_, _, List.getElem?_eq_getElem (by rw [hm.tracks_length]; exact hi),
    List.getElem?_eq_getElem (by rw [hm.flags_length]; exact hi)⟩

/-- **A track after a call**: one the call matched or created, or one of before that it did
not. -/
theorem mem_update (hn : WellNumbered tracker) {track : TrackedObject}
    (h : track ∈ (update srt tracker detections).tracks) :
    (track.trackId ∈ touchedIds srt tracker detections ∧ track.active = true ∧
        track.framesMissing = 0) ∨
      (track.trackId ∉ touchedIds srt tracker detections ∧
        ∃ old ∈ tracker.tracks, track = ageTrack tracker.config old false) := by
  have hm := assign_isMatching srt tracker detections
  have hmem := (List.mem_filter.mp h).1
  rcases List.mem_append.mp hmem with haged | hcreated
  · obtain ⟨⟨track₁, matched⟩, hzip, rfl⟩ := List.mem_map.mp haged
    obtain ⟨i, hi⟩ := List.mem_iff_getElem?.mp hzip
    obtain ⟨ht, hb⟩ := List.getElem?_zip_eq_some.mp hi
    have hlt : i < tracker.tracks.length := by
      rw [← hm.tracks_length]; exact (List.getElem?_eq_some_iff.mp ht).1
    have ho : tracker.tracks[i]? = some tracker.tracks[i] := List.getElem?_eq_getElem hlt
    have hrow := hm.row i _ track₁ matched ho ht hb
    have hflag := mem_matchedIds_iff hn ho ht hb
    cases matched with
    | true =>
        obtain ⟨hid, -, hact, hzero⟩ := hrow
        have hsame : ageTrack tracker.config track₁ true = track₁ := by simp [ageTrack]
        refine .inl ⟨?_, by dsimp only; rw [hsame, hact], by dsimp only; rw [hsame, hzero]⟩
        dsimp only
        rw [hsame, hid]
        exact List.mem_append_left _ (hflag.mpr rfl)
    | false =>
        obtain rfl : track₁ = tracker.tracks[i] := hrow
        have hold : tracker.tracks[i] ∈ tracker.tracks := List.getElem_mem hlt
        refine .inr ⟨fun hin => ?_, _, hold, rfl⟩
        dsimp only at hin
        rw [ageTrack_trackId] at hin
        rcases List.mem_append.mp hin with hmat | hcre
        · exact Bool.false_ne_true (hflag.mp hmat)
        · exact absurd (hn.below _ hold) (not_lt_of_ge (mem_createdIds hcre))
  · obtain ⟨i, hi, rfl⟩ := List.mem_mapIdx.mp hcreated
    refine .inl ⟨List.mem_append_right _ ?_, rfl, rfl⟩
    exact List.mem_mapIdx.mpr ⟨i, hi, rfl⟩

/-- **An inactive track** that is not long dead is kept as it is. -/
theorem mem_update_of_inactive (srt : PairSorter) (detections : List Detection)
    (hn : WellNumbered tracker) {old : TrackedObject} (ho : old ∈ tracker.tracks)
    (hact : old.active = false)
    (hdead : old.framesMissing ≤ tracker.config.maxFramesMissing * 2) :
    old ∈ (update srt tracker detections).tracks ∧
      old.trackId ∉ touchedIds srt tracker detections := by
  have hm := assign_isMatching srt tracker detections
  obtain ⟨i, hi⟩ := List.mem_iff_getElem?.mp ho
  obtain ⟨track, matched, ht, hb⟩ := exists_row srt detections hi
  have hflag := mem_matchedIds_iff hn hi ht hb
  have hrow := hm.row i old track matched hi ht hb
  cases matched with
  | true => exact absurd (hact.symm.trans hrow.2.1) Bool.false_ne_true
  | false =>
      obtain rfl : track = old := hrow
      have hsame : ageTrack tracker.config track false = track := by simp [ageTrack, hact]
      refine ⟨List.mem_filter.mpr ⟨List.mem_append_left _ (List.mem_map.mpr
        ⟨(track, false), List.mem_of_getElem? (i := i)
          (List.getElem?_zip_eq_some.mpr ⟨ht, hb⟩), hsame⟩), ?_⟩, fun hin => ?_⟩
      · simp [longDead, hact, hdead]
      · rcases List.mem_append.mp hin with hmat | hcre
        · exact Bool.false_ne_true (hflag.mp hmat)
        · exact absurd (hn.below _ ho) (not_lt_of_ge (mem_createdIds hcre))

/-- Ageing keeps the ids in place. -/
theorem map_ageTrack_trackId (srt : PairSorter) (tracker : IouTracker)
    (detections : List Detection) :
    (((assign srt tracker detections).tracks.zip
        (assign srt tracker detections).trackMatched).map fun (track, matched) =>
      ageTrack tracker.config track matched).map (·.trackId) =
      tracker.tracks.map (·.trackId) := by
  have hm := assign_isMatching srt tracker detections
  refine List.ext_getElem? fun i => ?_
  by_cases hi : i < tracker.tracks.length
  · have ho := List.getElem?_eq_getElem hi
    obtain ⟨track, matched, ht, hb⟩ := exists_row srt detections ho
    have hzip : ((assign srt tracker detections).tracks.zip
        (assign srt tracker detections).trackMatched)[i]? = some (track, matched) :=
      List.getElem?_zip_eq_some.mpr ⟨ht, hb⟩
    simp only [List.getElem?_map, hzip, ho, Option.map_some, ageTrack_trackId,
      (hm.row i _ track matched ho ht hb).trackId_eq]
  · have hlen : tracker.tracks.length ≤ i := Nat.le_of_not_lt hi
    rw [List.getElem?_eq_none, List.getElem?_eq_none]
    · rwa [List.length_map]
    · simpa [hm.tracks_length, hm.flags_length] using hlen

theorem update_wellNumbered (hn : WellNumbered tracker) :
    WellNumbered (update srt tracker detections) := by
  have hids := map_ageTrack_trackId srt tracker detections
  set m := assign srt tracker detections
  set aged := (m.tracks.zip m.trackMatched).map fun (track, matched) =>
    ageTrack tracker.config track matched
  have hbelow : ∀ track ∈ aged, track.trackId < tracker.nextTrackId := by
    intro track ht
    have hin : track.trackId ∈ tracker.tracks.map (·.trackId) := hids ▸ List.mem_map_of_mem ht
    obtain ⟨old, ho, hid⟩ := List.mem_map.mp hin
    exact hid ▸ hn.below old ho
  refine ⟨List.Pairwise.filter _ (List.pairwise_append.mpr ⟨?_, ?_, ?_⟩), fun track ht => ?_⟩
  · -- the aged tracks
    have hsorted : (tracker.tracks.map (·.trackId)).Pairwise (· < ·) :=
      List.pairwise_map.mpr hn.sorted
    rw [← hids] at hsorted
    exact List.pairwise_map.mp hsorted
  · -- the new ones
    refine List.pairwise_iff_getElem.mpr fun i j hi hj hij => ?_
    simp only [List.getElem_mapIdx, newTrack]
    omega
  · -- an aged one before a new one
    intro a ha b hb
    obtain ⟨i, hi, rfl⟩ := List.mem_mapIdx.mp hb
    have := hbelow a ha
    simp only [newTrack]
    omega
  · rcases List.mem_append.mp (List.mem_filter.mp ht).1 with ha | hc
    · have := hbelow track ha
      simp only [update]
      omega
    · obtain ⟨i, hi, rfl⟩ := List.mem_mapIdx.mp hc
      simp only [newTrack, update]
      omega

end Update

end IouTracker

end LoongNvr.Rules
