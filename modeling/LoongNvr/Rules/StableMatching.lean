import LoongNvr.Rules.IouTracker
import LoongNvr.Support.Greedy
import LoongNvr.Support.Runs
import Mathlib.Data.List.Perm.Basic
import Mathlib.Data.List.Pairwise

/-!
# Rules — StableMatching

What a call of `IouTracker::Update` makes of its detections, whatever the calls before it were.

* `assign_chose`: the loop over the sorted pairs is the greedy selection of pairs that share neither
  a track nor a detection.
-/

namespace LoongNvr.Rules.IouTracker
open LoongNvr.Core Support

/-! ### The chosen pairs -/

/-- The pairs are of one track or of one detection. -/
def sharesMember (p q : IouPair) : Bool :=
  decide (p.trackIdx = q.trackIdx) || decide (p.detIdx = q.detIdx)

theorem sharesMember_eq_false {p q : IouPair} :
    sharesMember p q = false ↔ p.trackIdx ≠ q.trackIdx ∧ p.detIdx ≠ q.detIdx := by
  rw [sharesMember, Bool.or_eq_false_iff, decide_eq_false_iff_not, decide_eq_false_iff_not]

/-- The pairs a call assigns. -/
def chosen (srt : PairSorter) (tracker : IouTracker) (detections : List Detection) :
    List IouPair :=
  greedyFrom sharesMember [] (srt.sort (buildPairs tracker.config tracker.tracks detections))

theorem mem_buildPairs_iff {config : Config} {tracks : List TrackedObject}
    {detections : List Detection} {pair : IouPair} :
    pair ∈ buildPairs config tracks detections ↔
      ∃ track det, tracks[pair.trackIdx]? = some track ∧ track.active = true ∧
        detections[pair.detIdx]? = some det ∧
        pair.iou = computeIou track.lastDetection det ∧ config.iouThreshold ≤ pair.iou := by
  simp only [buildPairs, List.mem_flatMap]
  constructor
  · rintro ⟨⟨track, t⟩, htrack, hmem⟩
    by_cases hact : track.active = true
    · rw [if_pos hact, List.mem_filterMap] at hmem
      obtain ⟨⟨det, d⟩, hdet, hsome⟩ := hmem
      dsimp only at hsome
      split at hsome
      · next hreach =>
          cases hsome
          exact ⟨track, det, List.mem_zipIdx_iff_getElem?.mp htrack, hact,
            List.mem_zipIdx_iff_getElem?.mp hdet, rfl, hreach⟩
      · cases hsome
    · rw [if_neg hact] at hmem
      cases hmem
  · rintro ⟨track, det, htrack, hact, hdet, hiou, hreach⟩
    refine ⟨(track, pair.trackIdx), List.mem_zipIdx_iff_getElem?.mpr htrack, ?_⟩
    rw [if_pos hact, List.mem_filterMap]
    refine ⟨(det, pair.detIdx), List.mem_zipIdx_iff_getElem?.mpr hdet, ?_⟩
    dsimp only
    rw [← hiou, if_pos hreach]

/-- The tracks and flags after these pairs. -/
structure Chose (config : Config) (tracks : List TrackedObject) (detections : List Detection)
    (taken : List IouPair) (m : Matching) : Prop where
  apart : taken.Pairwise fun p q => sharesMember p q = false
  real : ∀ p ∈ taken, p ∈ buildPairs config tracks detections
  touched : ∀ p ∈ taken, ∀ old det, tracks[p.trackIdx]? = some old →
    detections[p.detIdx]? = some det →
      m.tracks[p.trackIdx]? = some (extendTrack config det old)
  untouched : ∀ i, (∀ p ∈ taken, p.trackIdx ≠ i) → m.tracks[i]? = tracks[i]?
  trackFlag : m.trackMatched =
    (List.range tracks.length).map fun i => taken.any fun p => decide (p.trackIdx = i)
  detFlag : m.detMatched =
    (List.range detections.length).map fun d => taken.any fun p => decide (p.detIdx = d)

/-- A flag more. -/
theorem set_map_range (taken : List IouPair) (f : IouPair → ℕ) (pair : IouPair) (n : ℕ) :
    ((List.range n).map fun i => taken.any fun p => decide (f p = i)).set (f pair) true =
      (List.range n).map fun i => (taken ++ [pair]).any fun p => decide (f p = i) := by
  refine List.ext_getElem (by simp) fun i h₁ h₂ => ?_
  rw [List.getElem_set]
  by_cases e : f pair = i
  · simp [e]
  · simp [e]

theorem getD_map_range (taken : List IouPair) (f : IouPair → ℕ) {n i : ℕ} (hi : i < n) :
    ((List.range n).map fun i => taken.any fun p => decide (f p = i)).getD i false =
      taken.any fun p => decide (f p = i) := by
  simp [List.getD_eq_getElem?_getD, hi]

/-- **One turn of the loop.** -/
theorem Chose.assignPair {config : Config} {tracks : List TrackedObject}
    {detections : List Detection} {taken : List IouPair} {m : Matching} {pair : IouPair}
    (h : Chose config tracks detections taken m)
    (hpair : pair ∈ buildPairs config tracks detections) :
    Chose config tracks detections
      (if taken.any (sharesMember · pair) then taken else taken ++ [pair])
      (assignPair config detections m pair) := by
  obtain ⟨old, det, hold, -, hdet, -, -⟩ := mem_buildPairs_iff.mp hpair
  have ht : pair.trackIdx < tracks.length := (List.getElem?_eq_some_iff.mp hold).1
  have hd : pair.detIdx < detections.length := (List.getElem?_eq_some_iff.mp hdet).1
  -- the flags of the pair tell whether it shares a member with one taken
  have hflags : (m.trackMatched.getD pair.trackIdx false || m.detMatched.getD pair.detIdx false) =
      taken.any (sharesMember · pair) := by
    rw [h.trackFlag, h.detFlag, getD_map_range taken (·.trackIdx) ht,
      getD_map_range taken (·.detIdx) hd, Bool.eq_iff_iff, Bool.or_eq_true, List.any_eq_true,
      List.any_eq_true, List.any_eq_true, ← exists_or]
    refine exists_congr fun p => ?_
    rw [← and_or_left, sharesMember, Bool.or_eq_true]
  rw [IouTracker.assignPair, hflags]
  split
  · exact h
  · next hclear =>
      have hfree : ∀ p ∈ taken, sharesMember p pair = false := by
        intro p hp
        by_contra hshare
        exact hclear (List.any_eq_true.mpr ⟨p, hp, by simpa using hshare⟩)
      rw [hdet]
      refine ⟨?_, fun p hp => ?_, fun p hp old' det' hold' hdet' => ?_, fun i hi => ?_, ?_, ?_⟩
      · refine List.pairwise_append.mpr ⟨h.apart, List.pairwise_singleton _ _, fun p hp q hq => ?_⟩
        exact List.mem_singleton.mp hq ▸ hfree p hp
      · rcases List.mem_append.mp hp with hp | hp
        · exact h.real p hp
        · exact List.mem_singleton.mp hp ▸ hpair
      · dsimp only
        rcases List.mem_append.mp hp with hp | hp
        · have hne := (sharesMember_eq_false.mp (hfree p hp)).1
          rw [List.getElem?_modify_ne _ _ hne.symm]
          exact h.touched p hp old' det' hold' hdet'
        · obtain rfl := List.mem_singleton.mp hp
          obtain rfl : det = det' := Option.some.inj (hdet.symm.trans hdet')
          -- the row has not been touched before
          have hrow : m.tracks[p.trackIdx]? = some old' :=
            (h.untouched _ fun q hq => (sharesMember_eq_false.mp (hfree q hq)).1).trans hold'
          rw [List.getElem?_modify_eq, hrow]
          rfl
      · dsimp only
        have hne : pair.trackIdx ≠ i := hi pair (List.mem_append_right _ List.mem_cons_self)
        rw [List.getElem?_modify_ne _ _ hne]
        exact h.untouched i fun p hp => hi p (List.mem_append_left _ hp)
      · dsimp only
        rw [h.trackFlag, set_map_range taken (·.trackIdx) pair]
      · dsimp only
        rw [h.detFlag, set_map_range taken (·.detIdx) pair]

theorem Chose.foldl {config : Config} {tracks : List TrackedObject}
    {detections : List Detection} {taken : List IouPair} {m : Matching}
    (h : Chose config tracks detections taken m) (pairs : List IouPair)
    (hpairs : ∀ pair ∈ pairs, pair ∈ buildPairs config tracks detections) :
    Chose config tracks detections (taken ++ greedyFrom sharesMember taken pairs)
      (pairs.foldl (IouTracker.assignPair config detections) m) := by
  induction pairs generalizing taken m with
  | nil => simpa [greedyFrom] using h
  | cons pair pairs ih =>
      obtain ⟨hpair, hrest⟩ := List.forall_mem_cons.mp hpairs
      have hnext := ih (h.assignPair hpair) hrest
      rw [List.foldl_cons, greedyFrom]
      split at hnext
      · next hshare => rwa [if_pos hshare]
      · next hshare =>
          rw [if_neg hshare]
          rwa [List.append_assoc, List.singleton_append] at hnext

/-- **The greedy loop** assigns the chosen pairs. -/
theorem assign_chose (srt : PairSorter) (tracker : IouTracker) (detections : List Detection) :
    Chose tracker.config tracker.tracks detections (chosen srt tracker detections)
      (assign srt tracker detections) := by
  have hclear : Chose tracker.config tracker.tracks detections []
      { tracks := tracker.tracks
        trackMatched := List.replicate tracker.tracks.length false
        detMatched := List.replicate detections.length false } :=
    { apart := .nil
      real := fun _ hp => by cases hp
      touched := fun _ hp => by cases hp
      untouched := fun _ _ => rfl
      trackFlag := by simp [List.map_const']
      detFlag := by simp [List.map_const'] }
  rw [assign]
  split
  · have hloop := hclear.foldl (srt.sort (buildPairs tracker.config tracker.tracks detections))
      fun _ hp => srt.mem.mp hp
    exact hloop
  · next hnone =>
      -- without tracks or without detections there are no pairs
      have hpairs : buildPairs tracker.config tracker.tracks detections = [] := by
        refine List.eq_nil_iff_forall_not_mem.mpr fun pair hpair => hnone ?_
        obtain ⟨old, det, hold, -, hdet, -, -⟩ := mem_buildPairs_iff.mp hpair
        exact ⟨List.length_pos_of_mem (List.mem_of_getElem? hold),
          List.length_pos_of_mem (List.mem_of_getElem? hdet)⟩
      have hchosen : chosen srt tracker detections = [] := by
        rw [chosen, hpairs, List.perm_nil.mp (srt.perm [])]
        rfl
      rw [hchosen]
      exact hclear

/-! ### Rows by their flags -/

/-- What is flagged in a list, by position. -/
theorem map_filter_zip_range {α : Type*} (l : List α) (flag : ℕ → Bool) :
    ((l.zip ((List.range l.length).map flag)).filter (·.2)).map (·.1) =
      ((List.range l.length).filter flag).filterMap (l[·]?) := by
  induction l using List.reverseRecOn with
  | nil => rfl
  | append_singleton l a ih =>
      have hinit : ((List.range l.length).filter flag).filterMap (fun i => (l ++ [a])[i]?) =
          ((List.range l.length).filter flag).filterMap (l[·]?) := by
        refine List.filterMap_congr fun i hi => ?_
        have hlt : i < l.length := List.mem_range.mp (List.mem_filter.mp hi).1
        exact List.getElem?_append_left hlt
      rw [List.length_append, List.length_singleton, List.range_succ, List.map_append,
        List.zip_append (by simp), List.filter_append, List.map_append, ih, List.filter_append,
        List.filterMap_append, hinit]
      cases hflag : flag l.length with
      | true => simp [hflag]
      | false => simp [hflag]

/-- The positions of the pairs, in the order of the list. -/
theorem filter_range_perm {taken : List IouPair} {f : IouPair → ℕ} {n : ℕ}
    (hnodup : (taken.map f).Nodup) (hlt : ∀ p ∈ taken, f p < n) :
    ((List.range n).filter fun i => taken.any fun p => decide (f p = i)).Perm (taken.map f) := by
  refine (List.perm_ext_iff_of_nodup (List.nodup_range.filter _) hnodup).mpr fun i => ?_
  simp only [List.mem_filter, List.mem_range, List.any_eq_true, decide_eq_true_eq, List.mem_map]
  constructor
  · exact fun h => h.2
  · rintro ⟨p, hp, rfl⟩
    exact ⟨hlt p hp, p, hp, rfl⟩

/-- What the pairs flag in a list. -/
theorem flagged_perm {α : Type*} {taken : List IouPair} {f : IouPair → ℕ} {l : List α}
    (hnodup : (taken.map f).Nodup) (hlt : ∀ p ∈ taken, f p < l.length) :
    (((l.zip ((List.range l.length).map fun i => taken.any fun p => decide (f p = i))).filter
      (·.2)).map (·.1)).Perm (taken.filterMap fun p => l[f p]?) := by
  rw [map_filter_zip_range]
  have hperm := (filter_range_perm hnodup hlt).filterMap (l[·]?)
  rwa [List.filterMap_map] at hperm

theorem exists_perm_map_eq {α β : Type*} {f : α → β} {l : List α} {m : List β}
    (h : (l.map f).Perm m) : ∃ l' : List α, l'.Perm l ∧ l'.map f = m := by
  generalize hm : l.map f = m₀ at h
  induction h generalizing l with
  | nil => exact ⟨[], by rw [List.map_eq_nil_iff.mp hm], rfl⟩
  | cons b _ ih =>
      obtain ⟨a, l, rfl, rfl, rfl⟩ := List.map_eq_cons_iff.mp hm
      obtain ⟨l', hperm, rfl⟩ := ih rfl
      exact ⟨a :: l', hperm.cons a, rfl⟩
  | swap b b' m =>
      obtain ⟨a', l, rfl, rfl, hrest⟩ := List.map_eq_cons_iff.mp hm
      obtain ⟨a, l, rfl, rfl, rfl⟩ := List.map_eq_cons_iff.mp hrest
      exact ⟨a :: a' :: l, .swap a' a l, rfl⟩
  | trans _ _ ih₁ ih₂ =>
      obtain ⟨l₁, hperm₁, hmap₁⟩ := ih₁ hm
      obtain ⟨l₂, hperm₂, hmap₂⟩ := ih₂ hmap₁
      exact ⟨l₂, hperm₂.trans hperm₁, hmap₂⟩

/-! ### The tracks a call leaves -/

/-- Active, and matched or created in the latest call. -/
def seenNow (track : TrackedObject) : Bool := track.active && track.framesMissing == 0

/-- The tracks a call creates. -/
def createdTracks (srt : PairSorter) (tracker : IouTracker) (detections : List Detection) :
    List TrackedObject :=
  (unmatchedDetections detections (assign srt tracker detections).detMatched).mapIdx
    fun i det => newTrack (tracker.nextTrackId + i) det

/-- The tracks of the chosen pairs, extended. -/
def matchedTracks (srt : PairSorter) (tracker : IouTracker) (detections : List Detection) :
    List TrackedObject :=
  (chosen srt tracker detections).filterMap fun p =>
    (assign srt tracker detections).tracks[p.trackIdx]?

theorem filter_map_eq {α β : Type*} {p : β → Bool} {q : α → Bool} {g h : α → β} {l : List α}
    (hl : ∀ a ∈ l, p (g a) = q a ∧ (q a = true → g a = h a)) :
    (l.map g).filter p = (l.filter q).map h := by
  induction l with
  | nil => rfl
  | cons a l ih =>
      obtain ⟨⟨hp, hgh⟩, hrest⟩ := List.forall_mem_cons.mp hl
      rw [List.map_cons]
      by_cases hq : q a = true
      · rw [List.filter_cons_of_pos (hp.trans hq), List.filter_cons_of_pos hq, List.map_cons,
          ih hrest, hgh hq]
      · rw [List.filter_cons_of_neg (hp ▸ hq), List.filter_cons_of_neg hq, ih hrest]

section Call

variable {srt : PairSorter} {tracker : IouTracker} {detections : List Detection}

/-- The missing counter of every track is not negative. -/
def Counted (tracker : IouTracker) : Prop := ∀ track ∈ tracker.tracks, 0 ≤ track.framesMissing

theorem ageTrack_framesMissing {config : Config} {track : TrackedObject}
    (h : 0 ≤ track.framesMissing) : 0 ≤ (ageTrack config track false).framesMissing ∧
      seenNow (ageTrack config track false) = false := by
  cases hact : track.active with
  | false => simp [ageTrack, seenNow, hact, h]
  | true =>
      have hpos : track.framesMissing + 1 ≠ 0 := by omega
      have hnonneg : 0 ≤ track.framesMissing + 1 := by omega
      simp [ageTrack, seenNow, hact, hpos, hnonneg]

/-- What is seen in a call is what it matched and what it created. -/
theorem filter_seenNow_update (hcounted : Counted tracker) :
    ((update srt tracker detections).tracks.filter seenNow).Perm
      (matchedTracks srt tracker detections ++ createdTracks srt tracker detections) := by
  have hm := assign_isMatching srt tracker detections
  have hchose := assign_chose srt tracker detections
  set m := assign srt tracker detections with hmdef
  -- a track of before is seen exactly if it is flagged, and then it stays as it was assigned
  have haged : (((m.tracks.zip m.trackMatched).map fun p =>
      ageTrack tracker.config p.1 p.2).filter fun track =>
        seenNow track && !longDead tracker.config track) =
      ((m.tracks.zip m.trackMatched).filter (·.2)).map (·.1) := by
    refine filter_map_eq fun ⟨track, matched⟩ hmem => ?_
    obtain ⟨i, hi⟩ := List.mem_iff_getElem?.mp hmem
    obtain ⟨ht, hb⟩ := List.getElem?_zip_eq_some.mp hi
    have hlt : i < tracker.tracks.length := by
      rw [← hm.tracks_length]
      exact (List.getElem?_eq_some_iff.mp ht).1
    have ho : tracker.tracks[i]? = some tracker.tracks[i] := List.getElem?_eq_getElem hlt
    have hrow := hm.row i _ track matched ho ht hb
    cases matched with
    | true =>
        obtain ⟨-, -, hact, hzero⟩ := hrow
        have hsame : ageTrack tracker.config track true = track := by simp [ageTrack]
        exact ⟨by simp [hsame, seenNow, longDead, hact, hzero], fun _ => hsame⟩
    | false =>
        obtain rfl : track = tracker.tracks[i] := hrow
        have hseen := (@ageTrack_framesMissing tracker.config _
          (hcounted _ (List.getElem_mem hlt))).2
        exact ⟨by simp [hseen], fun h => absurd h Bool.false_ne_true⟩
  have hcreated : ((createdTracks srt tracker detections).filter fun track =>
      seenNow track && !longDead tracker.config track) = createdTracks srt tracker detections := by
    refine List.filter_eq_self.mpr fun track ht => ?_
    obtain ⟨i, hi, rfl⟩ := List.mem_mapIdx.mp ht
    rfl
  have hsplit : (update srt tracker detections).tracks.filter seenNow =
      ((m.tracks.zip m.trackMatched).filter (·.2)).map (·.1) ++
        createdTracks srt tracker detections := by
    rw [← haged, ← hcreated, ← List.filter_append]
    simp only [update, List.filter_filter]
    rfl
  rw [hsplit]
  refine List.Perm.append_right _ ?_
  have hnodup : ((chosen srt tracker detections).map (·.trackIdx)).Nodup :=
    List.pairwise_map.mpr (hchose.apart.imp fun h => (sharesMember_eq_false.mp h).1)
  rw [hchose.trackFlag, ← hm.tracks_length]
  refine flagged_perm hnodup fun p hp => ?_
  obtain ⟨old, -, hold, -⟩ := mem_buildPairs_iff.mp (hchose.real p hp)
  rw [hm.tracks_length]
  exact (List.getElem?_eq_some_iff.mp hold).1

/-- The track of a chosen pair. -/
theorem chosen_row {p : IouPair} (hp : p ∈ chosen srt tracker detections) :
    ∃ old det, tracker.tracks[p.trackIdx]? = some old ∧ old.active = true ∧
      detections[p.detIdx]? = some det ∧ p.iou = computeIou old.lastDetection det ∧
      tracker.config.iouThreshold ≤ p.iou ∧
      (assign srt tracker detections).tracks[p.trackIdx]? =
        some (extendTrack tracker.config det old) := by
  have hchose := assign_chose srt tracker detections
  obtain ⟨old, det, hold, hact, hdet, hiou, hreach⟩ := mem_buildPairs_iff.mp (hchose.real p hp)
  exact ⟨old, det, hold, hact, hdet, hiou, hreach, hchose.touched p hp old det hold hdet⟩

theorem mem_matchedTracks_iff {track : TrackedObject} :
    track ∈ matchedTracks srt tracker detections ↔
      ∃ p ∈ chosen srt tracker detections, ∃ old det, tracker.tracks[p.trackIdx]? = some old ∧
        detections[p.detIdx]? = some det ∧ track = extendTrack tracker.config det old := by
  rw [matchedTracks, List.mem_filterMap]
  refine exists_congr fun p => and_congr_right fun hp => ?_
  obtain ⟨old, det, hold, -, hdet, -, -, hrow⟩ := chosen_row hp
  rw [hrow]
  constructor
  · intro h
    exact ⟨old, det, hold, hdet, (Option.some.inj h).symm⟩
  · rintro ⟨old', det', hold', hdet', rfl⟩
    obtain rfl : old = old' := Option.some.inj (hold.symm.trans hold')
    obtain rfl : det = det' := Option.some.inj (hdet.symm.trans hdet')
    rfl

theorem mem_createdTracks {track : TrackedObject}
    (h : track ∈ createdTracks srt tracker detections) :
    tracker.nextTrackId ≤ track.trackId ∧
      ∃ d : ℕ, detections[d]? = some track.lastDetection ∧
        ∀ p ∈ chosen srt tracker detections, p.detIdx ≠ d := by
  obtain ⟨i, hi, rfl⟩ := List.mem_mapIdx.mp h
  refine ⟨by simp only [newTrack]; omega, ?_⟩
  have hmem := List.getElem_mem hi
  obtain ⟨⟨det, flag⟩, hfilter, hdet⟩ := List.mem_map.mp hmem
  obtain ⟨hzip, hflag⟩ := List.mem_filter.mp hfilter
  obtain ⟨d, hd⟩ := List.mem_iff_getElem?.mp hzip
  obtain ⟨hdets, hb⟩ := List.getElem?_zip_eq_some.mp hd
  refine ⟨d, by rw [hdets]; exact congrArg some hdet, fun p hp hpd => ?_⟩
  -- the detection of a chosen pair is flagged
  have hlt : d < detections.length := (List.getElem?_eq_some_iff.mp hdets).1
  rw [(assign_chose srt tracker detections).detFlag] at hb
  have hset : flag = true := by
    simp only [List.getElem?_map, List.getElem?_range hlt, Option.map_some,
      Option.some.injEq] at hb
    rw [← hb]
    exact List.any_eq_true.mpr ⟨p, hp, decide_eq_true hpd⟩
  simp [hset] at hflag

/-- The detections by the tracks they went to. -/
theorem map_lastDetection_perm :
    ((matchedTracks srt tracker detections ++ createdTracks srt tracker detections).map
      (·.lastDetection)).Perm detections := by
  have hm := assign_isMatching srt tracker detections
  have hchose := assign_chose srt tracker detections
  have hcreated : (createdTracks srt tracker detections).map (·.lastDetection) =
      unmatchedDetections detections (assign srt tracker detections).detMatched := by
    refine List.ext_getElem (by simp [createdTracks]) fun i h₁ h₂ => ?_
    simp [createdTracks, newTrack]
  have hmatched : (matchedTracks srt tracker detections).map (·.lastDetection) =
      (chosen srt tracker detections).filterMap fun p => detections[p.detIdx]? := by
    rw [matchedTracks, List.map_filterMap]
    refine List.filterMap_congr fun p hp => ?_
    obtain ⟨old, det, -, -, hdet, -, -, hrow⟩ := chosen_row hp
    rw [hrow, hdet]
    rfl
  have hnodup : ((chosen srt tracker detections).map (·.detIdx)).Nodup :=
    List.pairwise_map.mpr (hchose.apart.imp fun h => (sharesMember_eq_false.mp h).2)
  have hflagged := flagged_perm hnodup fun p hp => by
    obtain ⟨-, det, -, -, hdet, -⟩ := chosen_row hp
    exact (List.getElem?_eq_some_iff.mp hdet).1
  rw [← hchose.detFlag] at hflagged
  rw [List.map_append, hcreated, hmatched]
  refine (hflagged.symm.append_right _).trans ?_
  rw [unmatchedDetections, ← List.map_append]
  have hsplit := List.filter_append_perm (fun p : Detection × Bool => p.2)
    (detections.zip (assign srt tracker detections).detMatched)
  refine (hsplit.map _).trans (List.Perm.of_eq ?_)
  exact List.map_fst_zip (by rw [hm.det_length])

/-! ### What a call does -/

/-- What becomes of the detections of a call: `owners` are their tracks, by position. -/
structure Assignment (before : IouTracker) (detections : List Detection) (after : IouTracker)
    (owners : List TrackedObject) : Prop where
  one_to_one : owners.Perm (after.tracks.filter seenNow)
  detection : owners.map (·.lastDetection) = detections
  /-- A track is a new one, or an active one that overlapped enough. -/
  origin : ∀ owner ∈ owners, before.nextTrackId ≤ owner.trackId ∨
    ∃ old ∈ before.tracks, old.active = true ∧ old.trackId = owner.trackId ∧
      before.config.iouThreshold ≤ computeIou old.lastDetection owner.lastDetection
  /-- A track left alone and a detection that started a track do not overlap enough. -/
  apart : ∀ old ∈ before.tracks, old.active = true →
    (∀ owner ∈ owners, owner.trackId ≠ old.trackId) →
    ∀ owner ∈ owners, before.nextTrackId ≤ owner.trackId →
      computeIou old.lastDetection owner.lastDetection < before.config.iouThreshold
  /-- Of a track and a detection that could have been matched but were not, one has a partner
  that overlaps as much. -/
  stable : ∀ old ∈ before.tracks, old.active = true →
    ∀ owner ∈ owners, owner.trackId ≠ old.trackId →
    before.config.iouThreshold ≤ computeIou old.lastDetection owner.lastDetection →
      (∃ owner' ∈ owners, owner'.trackId = old.trackId ∧
        computeIou old.lastDetection owner.lastDetection ≤
          computeIou old.lastDetection owner'.lastDetection) ∨
      ∃ old' ∈ before.tracks, old'.active = true ∧ old'.trackId = owner.trackId ∧
        computeIou old.lastDetection owner.lastDetection ≤
          computeIou old'.lastDetection owner.lastDetection

/-- Two chosen pairs of one detection are the same. -/
theorem chosen_inj {p q : IouPair} (hp : p ∈ chosen srt tracker detections)
    (hq : q ∈ chosen srt tracker detections) (h : p.detIdx = q.detIdx) : p = q := by
  have hsymm : Std.Symm fun p q : IouPair => p.detIdx ≠ q.detIdx := ⟨fun _ _ hne => hne.symm⟩
  have hpairwise : (chosen srt tracker detections).Pairwise fun p q => p.detIdx ≠ q.detIdx :=
    (assign_chose srt tracker detections).apart.imp fun hp => (sharesMember_eq_false.mp hp).2
  by_contra hne
  exact hpairwise.forall hp hq hne h

/-- **For every pair that overlaps enough** one that overlaps as much is chosen, of its track or of
its detection. -/
theorem exists_chosen {i d : ℕ} {old : TrackedObject} {det : Detection}
    (hold : tracker.tracks[i]? = some old) (hact : old.active = true)
    (hdet : detections[d]? = some det)
    (hreach : tracker.config.iouThreshold ≤ computeIou old.lastDetection det) :
    ∃ k ∈ chosen srt tracker detections, computeIou old.lastDetection det ≤ k.iou ∧
      (k.trackIdx = i ∨ k.detIdx = d) := by
  have hpair : (⟨i, d, computeIou old.lastDetection det⟩ : IouPair) ∈
      buildPairs tracker.config tracker.tracks detections :=
    mem_buildPairs_iff.mpr ⟨old, det, hold, hact, hdet, rfl, hreach⟩
  set sorted := srt.sort (buildPairs tracker.config tracker.tracks detections) with hsorted
  have hmem := (@greedyFrom_append_passedFrom _ sharesMember [] sorted).mem_iff.mpr
    (srt.mem.mpr hpair)
  rcases List.mem_append.mp hmem with htaken | hpassed
  · exact ⟨_, htaken, le_rfl, .inl rfl⟩
  · rcases passed_covered (srt.sorted _) hpassed with ⟨_, ht, _⟩ | ⟨k, hk, hle, hshare⟩
    · cases ht
    · refine ⟨k, hk, not_lt.mp hle, ?_⟩
      rw [sharesMember, Bool.or_eq_true, decide_eq_true_iff, decide_eq_true_iff] at hshare
      exact hshare

/-- **A call assigns its detections**, soundly and stably. -/
theorem exists_assignment (hn : WellNumbered tracker) (hcounted : Counted tracker) :
    ∃ owners, Assignment tracker detections (update srt tracker detections) owners := by
  obtain ⟨owners, hperm, hdet⟩ :=
    exists_perm_map_eq (@map_lastDetection_perm srt tracker detections)
  have hcases : ∀ owner ∈ owners, owner ∈ matchedTracks srt tracker detections ∨
      owner ∈ createdTracks srt tracker detections :=
    fun owner ho => List.mem_append.mp (hperm.mem_iff.mp ho)
  have hstable : ∀ old ∈ tracker.tracks, old.active = true → ∀ owner ∈ owners,
      tracker.config.iouThreshold ≤ computeIou old.lastDetection owner.lastDetection →
        (∃ owner' ∈ owners, owner'.trackId = old.trackId ∧
          computeIou old.lastDetection owner.lastDetection ≤
            computeIou old.lastDetection owner'.lastDetection) ∨
        ∃ old' ∈ tracker.tracks, old'.active = true ∧ old'.trackId = owner.trackId ∧
          computeIou old.lastDetection owner.lastDetection ≤
            computeIou old'.lastDetection owner.lastDetection := by
    intro old hold hact owner howner hreach
    obtain ⟨i, hi⟩ := List.mem_iff_getElem?.mp hold
    -- a chosen pair of the track gives it a partner
    have hpartner : ∀ k ∈ chosen srt tracker detections, k.trackIdx = i →
        computeIou old.lastDetection owner.lastDetection ≤ k.iou →
          ∃ owner' ∈ owners, owner'.trackId = old.trackId ∧
            computeIou old.lastDetection owner.lastDetection ≤
              computeIou old.lastDetection owner'.lastDetection := by
      intro k hk hki hle
      obtain ⟨old', det', hold', -, hdet', hiou, -, -⟩ := chosen_row hk
      obtain rfl : old' = old := by
        rw [hki] at hold'
        exact Option.some.inj (hold'.symm.trans hi)
      refine ⟨extendTrack tracker.config det' old', hperm.mem_iff.mpr (List.mem_append_left _ ?_),
        rfl, hiou ▸ hle⟩
      exact mem_matchedTracks_iff.mpr ⟨k, hk, old', det', hold', hdet', rfl⟩
    rcases hcases owner howner with hmatched | hcreated
    · obtain ⟨p, hp, old', det, hold', hdet', rfl⟩ := mem_matchedTracks_iff.mp hmatched
      obtain ⟨k, hk, hle, hshare⟩ := exists_chosen hi hact hdet' hreach
      rcases hshare with htrack | hdetIdx
      · exact .inl (hpartner k hk htrack hle)
      · obtain rfl := chosen_inj hk hp hdetIdx
        obtain ⟨old'', det'', hold'', hact'', hdet'', hiou, -, -⟩ := chosen_row hk
        obtain rfl : old'' = old' := Option.some.inj (hold''.symm.trans hold')
        obtain rfl : det'' = det := Option.some.inj (hdet''.symm.trans hdet')
        exact .inr ⟨old'', List.mem_of_getElem? hold'', hact'', rfl, hiou ▸ hle⟩
    · obtain ⟨-, d, hd, hfree⟩ := mem_createdTracks hcreated
      obtain ⟨k, hk, hle, hshare⟩ := exists_chosen hi hact hd hreach
      exact .inl (hpartner k hk (hshare.resolve_right (hfree k hk)) hle)
  refine ⟨owners, hperm.trans (filter_seenNow_update hcounted).symm, hdet, ?_, ?_, ?_⟩
  · intro owner howner
    rcases hcases owner howner with hmatched | hcreated
    · obtain ⟨p, hp, old, det, hold, hdet', rfl⟩ := mem_matchedTracks_iff.mp hmatched
      obtain ⟨old', det', hold', hact, hdet'', hiou, hreach, -⟩ := chosen_row hp
      obtain rfl : old' = old := Option.some.inj (hold'.symm.trans hold)
      obtain rfl : det' = det := Option.some.inj (hdet''.symm.trans hdet')
      exact .inr ⟨old', List.mem_of_getElem? hold', hact, rfl, hiou ▸ hreach⟩
    · exact .inl (mem_createdTracks hcreated).1
  · intro old hold hact halone owner howner hnew
    by_contra hreach
    rcases hstable old hold hact owner howner (not_lt.mp hreach) with
      ⟨owner', howner', hid, -⟩ | ⟨old', hold', -, hid, -⟩
    · exact halone owner' howner' hid
    · have := hn.below old' hold'
      omega
  · exact fun old hold hact owner howner _ hreach => hstable old hold hact owner howner hreach

/-! ### Tracks from call to call -/

/-- **Where a track comes from**: an active one of before with one of the detections, one of before
without, or a new one. -/
theorem mem_update_cases {track : TrackedObject}
    (h : track ∈ (update srt tracker detections).tracks) :
    (∃ old ∈ tracker.tracks, old.active = true ∧ ∃ det ∈ detections,
      track = extendTrack tracker.config det old) ∨
    (∃ old ∈ tracker.tracks, track = ageTrack tracker.config old false) ∨
      track ∈ createdTracks srt tracker detections := by
  have hm := assign_isMatching srt tracker detections
  have hchose := assign_chose srt tracker detections
  rcases List.mem_append.mp (List.mem_filter.mp h).1 with haged | hcreated
  · obtain ⟨⟨track₁, matched⟩, hzip, rfl⟩ := List.mem_map.mp haged
    obtain ⟨i, hi⟩ := List.mem_iff_getElem?.mp hzip
    obtain ⟨ht, hb⟩ := List.getElem?_zip_eq_some.mp hi
    have hlt : i < tracker.tracks.length := by
      rw [← hm.tracks_length]
      exact (List.getElem?_eq_some_iff.mp ht).1
    have hold : tracker.tracks[i]? = some tracker.tracks[i] := List.getElem?_eq_getElem hlt
    cases matched with
    | true =>
        have hany : ((chosen srt tracker detections).any fun p => decide (p.trackIdx = i)) =
            true := by
          rw [hchose.trackFlag] at hb
          simpa [hlt] using hb
        obtain ⟨p, hp, hpi⟩ := List.any_eq_true.mp hany
        obtain rfl := of_decide_eq_true hpi
        obtain ⟨old, det, hold', hact, hdet, -, -, hrow⟩ := chosen_row hp
        obtain rfl := Option.some.inj (ht.symm.trans hrow)
        refine .inl ⟨old, List.mem_of_getElem? hold', hact, det, List.mem_of_getElem? hdet, ?_⟩
        simp [ageTrack]
    | false =>
        obtain rfl : track₁ = tracker.tracks[i] := hm.row i _ track₁ false hold ht hb
        exact .inr (.inl ⟨_, List.getElem_mem hlt, rfl⟩)
  · exact .inr (.inr hcreated)

end Call

/-! ### Runs -/

/-- The calls that change a tracker. -/
inductive TrackerCall
  | update (detections : List Detection)
  | reset
  deriving DecidableEq, Repr

/-- The ids a tracker has that it did not have before. -/
def newIds (before after : IouTracker) : List ℤ :=
  (after.tracks.map (·.trackId)).filter fun id => !(before.tracks.map (·.trackId)).contains id

/-- A tracker with the ids it has given since it was last reset, in the order of creation. -/
structure Numbering where
  tracker : IouTracker
  given : List ℤ := []

/-- A call, noting the new ids. -/
def Numbering.call (srt : PairSorter) (n : Numbering) : TrackerCall → Numbering
  | .update detections =>
      { tracker := update srt n.tracker detections
        given := n.given ++ newIds n.tracker (update srt n.tracker detections) }
  | .reset => { tracker := n.tracker.reset }

@[simp] theorem ageTrack_trajectory (config : Config) (track : TrackedObject) (matched : Bool) :
    (ageTrack config track matched).trajectory = track.trajectory := by
  simp only [ageTrack]
  split
  · rfl
  · split <;> rfl

@[simp] theorem ageTrack_lastDetection (config : Config) (track : TrackedObject)
    (matched : Bool) : (ageTrack config track matched).lastDetection = track.lastDetection := by
  simp only [ageTrack]
  split
  · rfl
  · split <;> rfl

/-- What holds of every track. -/
structure WellTracked (config : Config) (track : TrackedObject) : Prop where
  counted : 0 ≤ track.framesMissing
  trajectory_pos : 1 ≤ track.trajectory.length
  trajectory_le : (track.trajectory.length : ℤ) ≤ max 1 config.maxTrajectoryPoints
  trajectory_last : track.trajectory.getLast? = some (detectionCenter track.lastDetection)

theorem WellTracked.extendTrack {config : Config} {track : TrackedObject}
    (h : WellTracked config track) (det : Detection) :
    WellTracked config (extendTrack config det track) := by
  obtain ⟨-, hpos, hle, -⟩ := h
  have hlength : (track.trajectory ++ [detectionCenter det]).length =
      track.trajectory.length + 1 := by simp
  refine ⟨le_rfl, ?_, ?_, ?_⟩
  · simp only [IouTracker.extendTrack]
    split
    · rw [List.length_tail, hlength]
      omega
    · rw [hlength]
      omega
  · simp only [IouTracker.extendTrack]
    split
    · rw [List.length_tail, hlength]
      omega
    · next hfits =>
        rw [hlength] at hfits ⊢
        omega
  · simp only [IouTracker.extendTrack]
    split
    · -- the point dropped is not the new one
      obtain ⟨point, rest, hrest⟩ := List.exists_cons_of_length_pos hpos
      rw [hrest, List.cons_append, List.tail_cons, List.getLast?_append]
      rfl
    · rw [List.getLast?_append]
      rfl

theorem WellTracked.ageTrack {config : Config} {track : TrackedObject}
    (h : WellTracked config track) : WellTracked config (ageTrack config track false) where
  counted := (ageTrack_framesMissing h.counted).1
  trajectory_pos := by rw [ageTrack_trajectory]; exact h.trajectory_pos
  trajectory_le := by rw [ageTrack_trajectory]; exact h.trajectory_le
  trajectory_last := by
    rw [ageTrack_trajectory, ageTrack_lastDetection]
    exact h.trajectory_last

theorem wellTracked_newTrack (config : Config) (id : ℤ) (det : Detection) :
    WellTracked config (newTrack id det) := ⟨le_rfl, le_rfl, le_max_left _ _, rfl⟩

/-- What holds of a tracker between calls, with the ids it has given. -/
structure Numbering.Sound (config : Config) (n : Numbering) : Prop where
  config_eq : n.tracker.config = config
  numbered : WellNumbered n.tracker
  tracked : ∀ track ∈ n.tracker.tracks, WellTracked config track
  increasing : n.given.Pairwise (· < ·)
  below : ∀ id ∈ n.given, id < n.tracker.nextTrackId
  created : (n.tracker.tracks.map (·.trackId)).Sublist n.given

theorem Numbering.sound_of_nil {n : Numbering} (htracks : n.tracker.tracks = [])
    (hgiven : n.given = []) : n.Sound n.tracker.config where
  config_eq := rfl
  numbered := ⟨by simp [htracks], by simp [htracks]⟩
  tracked := by simp [htracks]
  increasing := by simp [hgiven]
  below := by simp [hgiven]
  created := by simp [htracks]

theorem tracked_update {srt : PairSorter} {tracker : IouTracker} {detections : List Detection}
    (h : ∀ track ∈ tracker.tracks, WellTracked tracker.config track) :
    ∀ track ∈ (update srt tracker detections).tracks, WellTracked tracker.config track := by
  intro track ht
  rcases mem_update_cases ht with ⟨old, hold, -, det, -, rfl⟩ | ⟨old, hold, rfl⟩ | hcreated
  · exact (h old hold).extendTrack det
  · exact (h old hold).ageTrack
  · obtain ⟨i, -, rfl⟩ := List.mem_mapIdx.mp hcreated
    exact wellTracked_newTrack _ _ _

/-- The ids after a call are ids of before and created ones, in this order. -/
theorem map_trackId_update (srt : PairSorter) (tracker : IouTracker)
    (detections : List Detection) :
    ∃ kept : List ℤ, kept.Sublist (tracker.tracks.map (·.trackId)) ∧
      (update srt tracker detections).tracks.map (·.trackId) =
        kept ++ createdIds srt tracker detections := by
  set aged := ((assign srt tracker detections).tracks.zip
    (assign srt tracker detections).trackMatched).map fun p =>
      ageTrack tracker.config p.1 p.2 with haged
  have hids : aged.map (·.trackId) = tracker.tracks.map (·.trackId) :=
    map_ageTrack_trackId srt tracker detections
  -- a new track is not removed
  have hcreated : (createdTracks srt tracker detections).filter
      (fun track => !longDead tracker.config track) = createdTracks srt tracker detections := by
    refine List.filter_eq_self.mpr fun track ht => ?_
    obtain ⟨i, -, rfl⟩ := List.mem_mapIdx.mp ht
    rfl
  have hcreatedIds : (createdTracks srt tracker detections).map (·.trackId) =
      createdIds srt tracker detections := by
    refine List.ext_getElem (by simp [createdTracks, createdIds]) fun i h₁ h₂ => ?_
    simp [createdTracks, createdIds, newTrack]
  refine ⟨(aged.filter fun track => !longDead tracker.config track).map (·.trackId), ?_, ?_⟩
  · rw [← hids]
    exact List.filter_sublist.map _
  · rw [← hcreatedIds, ← List.map_append, ← hcreated, ← List.filter_append]
    rfl

theorem newIds_update {srt : PairSorter} {tracker : IouTracker} (hn : WellNumbered tracker)
    (detections : List Detection) :
    newIds tracker (update srt tracker detections) = createdIds srt tracker detections := by
  obtain ⟨kept, hkept, hids⟩ := map_trackId_update srt tracker detections
  have hold : kept.filter (fun id => !(tracker.tracks.map (·.trackId)).contains id) = [] := by
    refine List.filter_eq_nil_iff.mpr fun id hid => ?_
    simpa using hkept.subset hid
  have hnew : (createdIds srt tracker detections).filter
      (fun id => !(tracker.tracks.map (·.trackId)).contains id) =
        createdIds srt tracker detections := by
    refine List.filter_eq_self.mpr fun id hid => ?_
    have hlow := mem_createdIds hid
    simp only [Bool.not_eq_true', List.contains_eq_mem, decide_eq_false_iff_not, List.mem_map]
    rintro ⟨track, ht, rfl⟩
    exact absurd (hn.below track ht) (not_lt_of_ge hlow)
  rw [newIds, hids, List.filter_append, hold, hnew, List.nil_append]

theorem createdIds_increasing (srt : PairSorter) (tracker : IouTracker)
    (detections : List Detection) :
    (createdIds srt tracker detections).Pairwise (· < ·) ∧
      ∀ id ∈ createdIds srt tracker detections,
        id < (update srt tracker detections).nextTrackId := by
  constructor
  · refine List.pairwise_iff_getElem.mpr fun i j hi hj hij => ?_
    simp only [createdIds, List.getElem_mapIdx]
    omega
  · intro id hid
    obtain ⟨i, hi, rfl⟩ := List.mem_mapIdx.mp hid
    simp only [update]
    omega

/-- **One call.** -/
theorem Numbering.Sound.call {config : Config} {n : Numbering} (h : n.Sound config)
    (srt : PairSorter) (c : TrackerCall) : (n.call srt c).Sound config := by
  obtain ⟨rfl, hn, htracked, hincreasing, hbelow, hcreated⟩ := h
  cases c with
  | reset =>
      exact @sound_of_nil (n.call srt .reset) rfl rfl
  | update detections =>
      obtain ⟨hpairwise, hnext⟩ := createdIds_increasing srt n.tracker detections
      obtain ⟨kept, hkept, hids⟩ := map_trackId_update srt n.tracker detections
      have hgiven : (n.call srt (.update detections)).given =
          n.given ++ createdIds srt n.tracker detections :=
        congrArg (n.given ++ ·) (newIds_update hn detections)
      have hgrow : n.tracker.nextTrackId ≤
          (IouTracker.update srt n.tracker detections).nextTrackId :=
        le_add_of_nonneg_right (Int.natCast_nonneg _)
      refine ⟨rfl, update_wellNumbered hn, tracked_update htracked, ?_, ?_, ?_⟩
      · rw [hgiven]
        refine List.pairwise_append.mpr ⟨hincreasing, hpairwise, fun id hid id' hid' => ?_⟩
        exact (hbelow id hid).trans_le (mem_createdIds hid')
      · rw [hgiven]
        intro id hid
        rcases List.mem_append.mp hid with hid | hid
        · exact (hbelow id hid).trans_le hgrow
        · exact hnext id hid
      · rw [hgiven]
        have hsub := (hkept.trans hcreated).append_right (createdIds srt n.tracker detections)
        rwa [← hids] at hsub

/-- **Matching is sound and stable** after any calls: ids are given once and grow, trajectories
are bounded and end where the track was last seen, and the next call assigns its detections. -/
theorem matching_sound_and_stable (config : Config) (srt : PairSorter)
    (calls : List TrackerCall) :
    let n := calls.foldl (Numbering.call srt) { tracker := { config := config } }
    (n.given.Pairwise (· < ·) ∧ (n.tracker.tracks.map (·.trackId)).Sublist n.given) ∧
    (∀ track ∈ n.tracker.tracks, 1 ≤ track.trajectory.length ∧
      (track.trajectory.length : ℤ) ≤ max 1 config.maxTrajectoryPoints ∧
      track.trajectory.getLast? = some (detectionCenter track.lastDetection)) ∧
    n.tracker.config = config ∧
    ∀ detections, ∃ owners,
      Assignment n.tracker detections (update srt n.tracker detections) owners := by
  intro n
  have hstart : Numbering.Sound config { tracker := { config := config } } :=
    @Numbering.sound_of_nil { tracker := { config := config } } rfl rfl
  have hn : n.Sound config := foldl_of_step (fun _ c h => h.call srt c) calls hstart
  refine ⟨⟨hn.increasing, hn.created⟩, fun track ht => ?_, hn.config_eq, fun detections =>
    exists_assignment hn.numbered fun track ht => (hn.tracked track ht).counted⟩
  obtain ⟨-, hpos, hle, hlast⟩ := hn.tracked track ht
  exact ⟨hpos, hle, hlast⟩

end LoongNvr.Rules.IouTracker
