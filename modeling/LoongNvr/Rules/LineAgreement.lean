import LoongNvr.Rules.FrameRuns
import LoongNvr.Rules.SideChanges

/-!
# Rules — LineAgreement

The two evaluators of lines, which watch the same changes of side.  A `CrossLineEvaluator` returns
early on a frame whose detections are all filtered out and keeps the sides of lost tracks until the
next one; a `CountingEvaluator` visits its tracks on every frame.

* `lineWatch`: what both watch, with notices for events.
* `taggedNotices_counting`, `taggedNotices_crossLine`: the notices of the two along a run, all of
  the watch's and those of a reported direction.
* `tallied_emitted`: the counts are the numbers of events.
* `counting_agrees`: the two agree.
* `changesReported_iff`: a track's changes of side are reported exactly if the side of its first
  detection makes none.
-/

namespace LoongNvr.Rules
open LoongNvr.Core Support IouTracker
open RuleEngine (RuleFrame)

/-- The tracks watched at a line, with notices for events. -/
def lineWatch (srt : PairSorter) (rule : AnalysisRule) : Watch ℤ → RuleFrame →
    Watch ℤ × List (ℤ × Notice) := watch srt rule (noticeVisit rule)

/-- An event under a track id, as a notice. -/
def taggedNotice (o : ℤ × RuleEvent) : ℤ × Notice := (o.1, noticeOf o.2)

/-! ### Counting -/

namespace CountingEvaluator

/-- The evaluator with what the visit to a track keeps. -/
def recordSide (context : FrameContext) (e : CountingEvaluator) (track : TrackedObject) :
    CountingEvaluator :=
  { e with
    lastSide := Function.update e.lastSide track.trackId
      (noticeVisit e.rule context (e.lastSide track.trackId) track).1 }

/-- The event of a crossing. -/
def countEvent (rule : AnalysisRule) (context : FrameContext) (track : TrackedObject)
    (direction : String) (countValue : ℤ) : RuleEvent :=
  { makeEvent rule .objectCounting context track with
    severity := .info, direction := direction, countValue := countValue }

/-- **What a turn of the loop can do**: keep the side, and where there is a crossing count it and
add an event with the difference of the counts. -/
theorem visitTrack_cases (context : FrameContext) (e : CountingEvaluator)
    (events : List RuleEvent) (track : TrackedObject) :
    (noticeVisit e.rule context (e.lastSide track.trackId) track).2 = [] ∧
        visitTrack context (e, events) track = (recordSide context e track, events) ∨
    ∃ direction countAToB countBToA,
      (direction = "A_to_B" ∧ countAToB = e.countAToB + 1 ∧ countBToA = e.countBToA ∨
        direction = "B_to_A" ∧ countAToB = e.countAToB ∧ countBToA = e.countBToA + 1) ∧
      (noticeVisit e.rule context (e.lastSide track.trackId) track).2 =
        noticed context track direction ∧
      visitTrack context (e, events) track =
        ({ recordSide context e track with countAToB := countAToB, countBToA := countBToA },
          events ++ [countEvent e.rule context track direction (countAToB - countBToA)]) := by
  rw [recordSide]
  obtain ⟨r, hr⟩ : ∃ r, r = noticeVisit e.rule context (e.lastSide track.trackId) track :=
    ⟨_, rfl⟩
  rw [← hr]
  rw [noticeVisit, lineVisit] at hr
  rw [visitTrack]
  dsimp only at hr ⊢
  split at hr
  · next hskip =>
      subst hr
      rw [if_pos hskip]
      refine .inl ⟨rfl, ?_⟩
      rw [Function.update_eq_self]
  · next hskip =>
      rw [if_neg hskip]
      split at hr
      · next hzero =>
          subst hr
          rw [if_pos hzero]
          refine .inl ⟨rfl, ?_⟩
          rw [Function.update_eq_self]
      · next hzero =>
          rw [if_neg hzero]
          cases hlast : e.lastSide track.trackId with
          | none =>
              rw [hlast] at hr
              subst hr
              exact .inl ⟨rfl, rfl⟩
          | some prev =>
              rw [hlast] at hr
              dsimp only at hr ⊢
              split at hr
              · next hchange =>
                  subst hr
                  rw [if_pos hchange]
                  by_cases hdirection :
                      crossingDirection prev (currentSide e.rule track context) = "A_to_B"
                  · refine .inr ⟨_, _, _, .inl ⟨hdirection, rfl, rfl⟩, rfl, ?_⟩
                    simp [hdirection, countEvent]
                  · have hother : crossingDirection prev (currentSide e.rule track context) =
                        "B_to_A" := by
                      rw [crossingDirection] at hdirection ⊢
                      split at hdirection
                      · exact absurd rfl hdirection
                      · next hnot => exact if_neg hnot
                    refine .inr ⟨_, _, _, .inr ⟨hother, rfl, rfl⟩, rfl, ?_⟩
                    simp [hother, countEvent]
              · next hchange =>
                  subst hr
                  rw [if_neg hchange]
                  exact .inl ⟨rfl, rfl⟩

theorem appends_visitTrack (context : FrameContext) : Appends (visitTrack context) := by
  intro e events track
  rw [visitTrack, visitTrack]
  dsimp only
  split
  · simp
  · split
    · simp
    · cases e.lastSide track.trackId with
      | none => simp
      | some prev =>
          dsimp only
          split <;> simp

theorem withoutIds_evaluateByTrack (srt : PairSorter) (e : CountingEvaluator)
    (frame : RuleFrame) :
    withoutIds (e.evaluateByTrack srt frame) = e.evaluate srt frame.1 frame.2 := by
  simp only [evaluateByTrack, evaluate]
  rw [← withoutIds_foldl (appends_visitTrack frame.2)]
  rfl

/-- The loop keeps the sides that the watch keeps, and its events are the watch's notices. -/
theorem foldl_underTrack (context : FrameContext) (tracks : List TrackedObject)
    (e : CountingEvaluator) (out : List (ℤ × RuleEvent)) :
    let after := tracks.foldl (underTrack (visitTrack context)) (e, out)
    let watched := tracks.foldl (visitStep (·.trackId) (byId (noticeVisit e.rule context)))
      (e.lastSide, out.map taggedNotice)
    after.1.rule = e.rule ∧ after.1.tracker = e.tracker ∧ after.1.lastSide = watched.1 ∧
      after.2.map taggedNotice = watched.2 := by
  induction tracks generalizing e out with
  | nil => exact ⟨rfl, rfl, rfl, rfl⟩
  | cons track tracks ih =>
      rw [List.foldl_cons, List.foldl_cons]
      rcases visitTrack_cases context e [] track with ⟨hnone, hvisit⟩ |
        ⟨direction, countAToB, countBToA, -, hone, hvisit⟩
      · have hstep := ih (recordSide context e track) out
        simpa [underTrack, hvisit, visitStep, byId, hnone, recordSide] using hstep
      · have hstep := ih
          { recordSide context e track with countAToB := countAToB, countBToA := countBToA }
          (out ++ [(track.trackId,
            countEvent e.rule context track direction (countAToB - countBToA))])
        simpa [underTrack, hvisit, visitStep, byId, hone, noticed, taggedNotice, noticeOf,
          makeEvent, recordSide, countEvent] using hstep

/-- A frame is a frame of the watch. -/
theorem evaluateByTrack_watch (srt : PairSorter) (e : CountingEvaluator) (frame : RuleFrame) :
    let after := e.evaluateByTrack srt frame
    let watched := lineWatch srt e.rule (e.tracker, e.lastSide) frame
    after.1.rule = e.rule ∧ (after.1.tracker, after.1.lastSide) = watched.1 ∧
      after.2.map taggedNotice = watched.2 := by
  obtain ⟨hrule, htracker, hside, hout⟩ := foldl_underTrack frame.2
    (update srt e.tracker (filterDetections e.rule frame.1)).tracks
    { e with tracker := update srt e.tracker (filterDetections e.rule frame.1) } []
  simp only [evaluateByTrack, lineWatch, watch]
  refine ⟨hrule, ?_, hout⟩
  rw [htracker, hside]
  rfl

/-- **The notices of a run of frames** are those of the watch. -/
theorem taggedNotices_counting (srt : PairSorter) (rule : AnalysisRule)
    (frames : List RuleFrame) :
    (emitted (evaluateByTrack srt) (configure {} rule) frames).map taggedNotice =
      emitted (lineWatch srt rule) (newWatch ℤ) frames := by
  refine map_emitted_eq_of_simulation
    (fun (e : CountingEvaluator) s => e.rule = rule ∧ (e.tracker, e.lastSide) = s) ?_ ⟨rfl, rfl⟩
    frames
  rintro e _ frame ⟨rfl, rfl⟩
  obtain ⟨hrule, hstate, hout⟩ := evaluateByTrack_watch srt e frame
  exact ⟨hout, hrule, hstate⟩

/-! ### The counts -/

/-- How many events are of a direction. -/
def crossings (direction : String) (events : List RuleEvent) : ℤ :=
  events.countP fun event => event.direction = direction

/-- The counts are the numbers of events so far, and each event has their difference at it. -/
structure Tallied (e : CountingEvaluator) (events : List RuleEvent) : Prop where
  aToB : e.countAToB = crossings "A_to_B" events
  bToA : e.countBToA = crossings "B_to_A" events
  values : ∀ (i : ℕ) (event : RuleEvent), events[i]? = some event →
    event.countValue = crossings "A_to_B" (events.take (i + 1)) -
      crossings "B_to_A" (events.take (i + 1))

theorem crossings_concat (direction : String) (events : List RuleEvent) (event : RuleEvent) :
    crossings direction (events ++ [event]) =
      crossings direction events + if event.direction = direction then 1 else 0 := by
  simp only [crossings, List.countP_append, List.countP_singleton, decide_eq_true_eq]
  split <;> simp

theorem Tallied.visitTrack {e : CountingEvaluator} {events : List RuleEvent}
    (h : Tallied e events) (context : FrameContext) (track : TrackedObject) :
    Tallied (visitTrack context (e, events) track).1 (visitTrack context (e, events) track).2 := by
  rcases visitTrack_cases context e events track with ⟨-, hvisit⟩ |
    ⟨direction, countAToB, countBToA, hcounts, -, hvisit⟩
  · rw [hvisit]
    exact ⟨h.aToB, h.bToA, h.values⟩
  · rw [hvisit]
    dsimp only
    set event := countEvent e.rule context track direction (countAToB - countBToA) with hevent
    have haToB : countAToB = crossings "A_to_B" (events ++ [event]) := by
      rw [crossings_concat, ← h.aToB, hevent, countEvent]
      rcases hcounts with ⟨rfl, rfl, -⟩ | ⟨rfl, rfl, -⟩ <;> simp
    have hbToA : countBToA = crossings "B_to_A" (events ++ [event]) := by
      rw [crossings_concat, ← h.bToA, hevent, countEvent]
      rcases hcounts with ⟨rfl, -, rfl⟩ | ⟨rfl, -, rfl⟩ <;> simp
    refine ⟨haToB, hbToA, fun i other hother => ?_⟩
    rcases Nat.lt_or_ge i events.length with hold | hnew
    · rw [List.getElem?_append_left hold] at hother
      rw [List.take_append_of_le_length hold]
      exact h.values i other hother
    · rw [List.getElem?_append_right hnew] at hother
      have hlast : i = events.length := by
        have hlt := (List.getElem?_eq_some_iff.mp hother).1
        rw [List.length_singleton] at hlt
        omega
      subst hlast
      rw [Nat.sub_self] at hother
      obtain rfl := Option.some.inj hother
      rw [List.take_of_length_le (by simp), ← haToB, ← hbToA]
      rfl

/-- The loop with some events there before it. -/
theorem foldl_appends {σ : Type}
    {visitTrack : σ × List RuleEvent → TrackedObject → σ × List RuleEvent}
    (h : Appends visitTrack) (tracks : List TrackedObject) (state : σ) (events : List RuleEvent) :
    tracks.foldl visitTrack (state, events) =
      ((tracks.foldl visitTrack (state, [])).1,
        events ++ (tracks.foldl visitTrack (state, [])).2) := by
  induction tracks generalizing state events with
  | nil => simp
  | cons track tracks ih =>
      rw [List.foldl_cons, List.foldl_cons, h, ih, ih _ (visitTrack (state, []) track).2,
        List.append_assoc]

theorem Tallied.dropStale {e : CountingEvaluator} {events : List RuleEvent} (h : Tallied e events)
    (tracker : IouTracker) :
    Tallied { e with lastSide := Rules.dropStale tracker e.lastSide } events :=
  ⟨h.aToB, h.bToA, h.values⟩

theorem Tallied.evaluate {e : CountingEvaluator} {events : List RuleEvent} (h : Tallied e events)
    (srt : PairSorter) (frame : RuleFrame) :
    Tallied (e.evaluate srt frame.1 frame.2).1
      (events ++ (e.evaluate srt frame.1 frame.2).2) := by
  set tracker := update srt e.tracker (filterDetections e.rule frame.1) with htracker
  have hvisit : ∀ (acc : CountingEvaluator × List RuleEvent) track, Tallied acc.1 acc.2 →
      Tallied (CountingEvaluator.visitTrack frame.2 acc track).1
        (CountingEvaluator.visitTrack frame.2 acc track).2 :=
    fun _ track hacc => hacc.visitTrack frame.2 track
  have hstart : Tallied { e with tracker := tracker } events := ⟨h.aToB, h.bToA, h.values⟩
  have hloop := foldl_of_step (P := fun acc => Tallied acc.1 acc.2) hvisit
    (s := ({ e with tracker := tracker }, events)) tracker.tracks hstart
  rw [foldl_appends (appends_visitTrack frame.2)] at hloop
  rw [CountingEvaluator.evaluate]
  exact hloop.dropStale tracker

/-- **The counts are the numbers of events** after any frames. -/
theorem tallied_emitted {srt : PairSorter} (frames : List RuleFrame) {e : CountingEvaluator}
    {events : List RuleEvent} (h : Tallied e events) :
    Tallied (frames.foldl (silent fun e frame => evaluate srt e frame.1 frame.2) e)
      (events ++ emitted (fun e frame => evaluate srt e frame.1 frame.2) e frames) := by
  induction frames generalizing e events with
  | nil => simpa [emitted] using h
  | cons frame frames ih =>
      have hlater := ih (h.evaluate srt frame)
      rwa [List.append_assoc] at hlater

end CountingEvaluator

/-! ### Crossing a line -/

/-- The directions a rule reports. -/
def reports (rule : AnalysisRule) (notice : Notice) : Bool :=
  rule.line.bidirectional || notice.direction == "A_to_B"

/-- The notices of a rule's directions. -/
def reported (rule : AnalysisRule) (out : List (ℤ × Notice)) : List (ℤ × Notice) :=
  out.filter fun o => reports rule o.2

namespace CrossLineEvaluator

/-- A visit keeps what the watch keeps, and its events are the notices of the rule's directions. -/
theorem lineVisit_crossing (rule : AnalysisRule) (context : FrameContext) (last : Option ℤ)
    (track : TrackedObject) :
    (lineVisit rule (crossing rule context) context last track).1 =
        (noticeVisit rule context last track).1 ∧
      (lineVisit rule (crossing rule context) context last track).2.map noticeOf =
        (noticeVisit rule context last track).2.filter (reports rule) := by
  have hcrossing : ∀ direction, (crossing rule context track direction).map noticeOf =
      (noticed context track direction).filter (reports rule) := by
    intro direction
    by_cases hbidirectional : rule.line.bidirectional = true
    · simp [crossing, noticed, reports, hbidirectional, noticeOf, makeEvent]
    · by_cases hdirection : direction = "A_to_B"
      · simp [crossing, noticed, reports, hdirection, noticeOf, makeEvent]
      · simp [crossing, noticed, reports, hbidirectional, hdirection]
  rw [noticeVisit, lineVisit, lineVisit]
  split
  · exact ⟨rfl, rfl⟩
  · dsimp only
    split
    · exact ⟨rfl, rfl⟩
    · refine ⟨rfl, ?_⟩
      cases last with
      | none => rfl
      | some prev =>
          dsimp only
          split
          · exact hcrossing _
          · rfl

/-- How an evaluator stands to the watch: they know the same of the tracks there are, and where a
track is visited and off the line, the side it is on. -/
structure Follows (rule : AnalysisRule) (width height : ℤ) (x : CrossLineEvaluator)
    (s : Watch ℤ) : Prop where
  rule_eq : x.rule = rule
  tracker_eq : x.tracker = s.1
  config_eq : s.1.config = trackerConfig
  numbered : WellNumbered s.1
  tracked : ∀ track ∈ s.1.tracks, WellTracked trackerConfig track
  same : ∀ track ∈ s.1.tracks, x.lastSide track.trackId = s.2 track.trackId
  fresh : ∀ trackId, s.1.nextTrackId ≤ trackId → x.lastSide trackId = none ∧ s.2 trackId = none
  settled : ∀ track ∈ s.1.tracks, Settled rule width height track (s.2 track.trackId)

theorem follows_configure (rule : AnalysisRule) (width height : ℤ) :
    Follows rule width height (configure {} rule) (newWatch ℤ) where
  rule_eq := rfl
  tracker_eq := rfl
  config_eq := rfl
  numbered := wellNumbered_new _
  tracked _ h := absurd h List.not_mem_nil
  same _ h := absurd h List.not_mem_nil
  fresh _ _ := ⟨rfl, rfl⟩
  settled _ h := absurd h List.not_mem_nil

section Step

variable {rule : AnalysisRule} {width height : ℤ} {x : CrossLineEvaluator} {s : Watch ℤ}
  {srt : PairSorter} {detections : List Detection}

/-- The tracks of the next frame are known alike. -/
theorem Follows.same_update (h : Follows rule width height x s) :
    ∀ track ∈ (update srt s.1 detections).tracks,
      x.lastSide track.trackId = s.2 track.trackId := by
  intro track htrack
  rcases mem_update_cases htrack with ⟨old, hold, -, det, -, rfl⟩ | ⟨old, hold, rfl⟩ | hcreated
  · exact h.same old hold
  · rw [ageTrack_trackId]
    exact h.same old hold
  · obtain ⟨hx, hs⟩ := h.fresh track.trackId (mem_createdTracks hcreated).1
    exact hx.trans hs.symm

/-- Without detections the tracks stay where they were. -/
theorem Follows.settled_update (h : Follows rule width height x s) :
    ∀ track ∈ (update srt s.1 []).tracks, Settled rule width height track (s.2 track.trackId) := by
  intro track htrack
  rcases mem_update_cases htrack with ⟨old, hold, -, det, hdet, -⟩ | ⟨old, hold, rfl⟩ | hcreated
  · exact absurd hdet List.not_mem_nil
  · rw [ageTrack_trackId]
    exact (h.settled old hold).ageTrack
  · obtain ⟨-, d, hd, -⟩ := mem_createdTracks hcreated
    exact absurd hd (by simp)

theorem Follows.tracked_update (h : Follows rule width height x s) :
    ∀ track ∈ (update srt s.1 detections).tracks, WellTracked trackerConfig track := by
  have htracked := h.tracked
  rw [← h.config_eq] at htracked ⊢
  exact IouTracker.tracked_update htracked

/-- What is kept of a track that is there after the loop and the clean-up. -/
theorem dropStale_visited {β ε : Type} {tracker : IouTracker} (hn : WellNumbered tracker)
    {visit : Visit TrackedObject β ε} {kept : ℤ → Option β} {track : TrackedObject}
    (h : track ∈ tracker.tracks) :
    dropStale tracker (visited (·.trackId) visit tracker.tracks kept) track.trackId =
      (visit (kept track.trackId) track).1 := by
  have hget : tracker.getTrack track.trackId = some track :=
    (getTrack_eq_some_iff hn).mpr ⟨h, rfl⟩
  rw [dropStale, hget]
  rw [getTrack] at hget
  simp [visited, hget]

theorem dropStale_of_next {α : Type} {tracker : IouTracker} (hn : WellNumbered tracker)
    (m : ℤ → Option α) {trackId : ℤ} (h : tracker.nextTrackId ≤ trackId) :
    dropStale tracker m trackId = none := by
  have hnone : tracker.getTrack trackId = none :=
    getTrack_eq_none_iff.mpr fun track htrack hid =>
      absurd (hn.below track htrack) (hid ▸ not_lt_of_ge h)
  simp [dropStale, hnone]

/-- A frame of the watch, visit by visit. -/
theorem lineWatch_eq (srt : PairSorter) (rule : AnalysisRule) {s : Watch ℤ}
    (hn : WellNumbered s.1) (frame : RuleFrame) :
    lineWatch srt rule s frame =
      ((update srt s.1 (filterDetections rule frame.1),
        dropStale (update srt s.1 (filterDetections rule frame.1))
          (visited (·.trackId) (byId (noticeVisit rule frame.2))
            (update srt s.1 (filterDetections rule frame.1)).tracks s.2)),
        (update srt s.1 (filterDetections rule frame.1)).tracks.flatMap fun track =>
          (noticeVisit rule frame.2 (s.2 track.trackId) track).2.map
            fun o => (track.trackId, o)) := by
  rw [lineWatch, watch, foldl_byId (update_wellNumbered hn)]

/-- **A frame whose detections are all filtered out** only ages the tracks. -/
theorem Follows.frame_nil (h : Follows rule width height x s) {frame : RuleFrame}
    (hsize : OfSize width height frame.2) (hnil : filterDetections rule frame.1 = []) :
    (lineWatch srt rule s frame).2 = [] ∧
      Follows rule width height { x with tracker := update srt x.tracker [] }
        (lineWatch srt rule s frame).1 := by
  have hafter : WellNumbered (update srt s.1 []) := update_wellNumbered h.numbered
  have hvisit : ∀ track ∈ (update srt s.1 []).tracks,
      noticeVisit rule frame.2 (s.2 track.trackId) track = (s.2 track.trackId, []) :=
    fun track htrack => lineVisit_of_settled hsize (h.tracked_update track htrack)
      (h.settled_update track htrack)
  rw [lineWatch_eq srt rule h.numbered, hnil]
  dsimp only
  have hkept : ∀ track ∈ (update srt s.1 []).tracks,
      dropStale (update srt s.1 []) (visited (·.trackId) (byId (noticeVisit rule frame.2))
        (update srt s.1 []).tracks s.2) track.trackId = s.2 track.trackId := by
    intro track htrack
    rw [dropStale_visited hafter htrack, byId, hvisit track htrack]
  have hsettled : ∀ track ∈ (update srt s.1 []).tracks,
      Settled rule width height track (dropStale (update srt s.1 [])
        (visited (·.trackId) (byId (noticeVisit rule frame.2)) (update srt s.1 []).tracks s.2)
          track.trackId) := by
    intro track htrack
    rw [hkept track htrack]
    exact h.settled_update track htrack
  refine ⟨List.flatMap_eq_nil_iff.mpr fun track htrack => by rw [hvisit track htrack]; rfl, ?_⟩
  exact
    { rule_eq := h.rule_eq
      tracker_eq := congrArg (update srt · []) h.tracker_eq
      config_eq := h.config_eq
      numbered := hafter
      tracked := h.tracked_update
      same := fun track htrack => (h.same_update track htrack).trans (hkept track htrack).symm
      fresh := fun trackId hnext =>
        ⟨(h.fresh trackId ((nextTrackId_le_update srt s.1 []).trans hnext)).1,
          dropStale_of_next hafter _ hnext⟩
      settled := hsettled }

/-- **A frame.** -/
theorem Follows.frame (h : Follows rule width height x s) (srt : PairSorter) {frame : RuleFrame}
    (hsize : OfSize width height frame.2) :
    (x.evaluateByTrack srt frame).2.map taggedNotice =
        reported rule (lineWatch srt rule s frame).2 ∧
      Follows rule width height (x.evaluateByTrack srt frame).1 (lineWatch srt rule s frame).1 := by
  obtain rfl := h.rule_eq
  rw [evaluateByTrack]
  dsimp only
  by_cases hnil : filterDetections x.rule frame.1 = []
  · obtain ⟨hout, hfollows⟩ := @Follows.frame_nil _ _ _ _ _ srt h frame hsize hnil
    rw [hnil, if_pos List.isEmpty_nil, hout]
    exact ⟨rfl, hfollows⟩
  · have hafter : WellNumbered (update srt s.1 (filterDetections x.rule frame.1)) :=
      update_wellNumbered h.numbered
    have hsame := @Follows.same_update _ _ _ _ _ srt (filterDetections x.rule frame.1) h
    rw [if_neg (by simpa using hnil), h.tracker_eq, visitTrack_eq, underTrack_visitStep,
      foldl_byId hafter, lineWatch_eq srt x.rule h.numbered]
    dsimp only
    refine ⟨?_, ?_⟩
    · -- visit by visit, the events are the notices of the rule's directions
      rw [List.map_flatMap, reported, List.filter_flatMap]
      refine List.flatMap_congr fun track htrack => ?_
      have hvisit := (lineVisit_crossing x.rule frame.2 (s.2 track.trackId) track).2
      have htag := congrArg (List.map fun notice => (track.trackId, notice)) hvisit
      rw [hsame track htrack, List.filter_map]
      rw [List.map_map] at htag ⊢
      exact htag
    · set after := update srt s.1 (filterDetections x.rule frame.1) with hafterDef
      set kept := visited (·.trackId) (byId (noticeVisit x.rule frame.2)) after.tracks s.2
      have hkept : ∀ track ∈ after.tracks, dropStale after kept track.trackId =
          (noticeVisit x.rule frame.2 (s.2 track.trackId) track).1 :=
        fun track htrack => dropStale_visited hafter htrack
      have hknown : ∀ track ∈ after.tracks,
          dropStale after (visited (·.trackId)
            (byId (lineVisit x.rule (crossing x.rule frame.2) frame.2)) after.tracks x.lastSide)
              track.trackId = dropStale after kept track.trackId := by
        intro track htrack
        rw [hkept track htrack, dropStale_visited hafter htrack, byId,
          (lineVisit_crossing _ _ _ _).1, hsame track htrack]
      have hsettled : ∀ track ∈ after.tracks,
          Settled x.rule width height track (dropStale after kept track.trackId) := by
        intro track htrack
        rw [hkept track htrack]
        exact settled_lineVisit hsize (h.tracked_update track htrack)
      exact
        { rule_eq := rfl
          tracker_eq := rfl
          config_eq := h.config_eq
          numbered := hafter
          tracked := h.tracked_update
          same := hknown
          fresh := fun trackId hnext =>
            ⟨dropStale_of_next hafter _ hnext, dropStale_of_next hafter _ hnext⟩
          settled := hsettled }

end Step

/-- **The notices of a run of frames** are those of the watch in the rule's directions. -/
theorem taggedNotices_crossLine (srt : PairSorter) (rule : AnalysisRule) {width height : ℤ}
    {frames : List RuleFrame} (hsize : ∀ frame ∈ frames, OfSize width height frame.2) :
    (emitted (evaluateByTrack srt) (configure {} rule) frames).map taggedNotice =
      reported rule (emitted (lineWatch srt rule) (newWatch ℤ) frames) :=
  emitted_read_eq_of_simulation
    (fun _ _ => List.map_append) (fun _ _ => List.filter_append _ _)
    (fun _ _ _ hfollows hframe => hfollows.frame srt hframe)
    (follows_configure rule width height) hsize

end CrossLineEvaluator

/-! ### The two of them -/

namespace CountingEvaluator

variable (srt : PairSorter) (rule : AnalysisRule) (frames : List RuleFrame)

/-- The evaluator, configured with the rule, after the frames. -/
def after : CountingEvaluator :=
  frames.foldl (silent fun e frame => evaluate srt e frame.1 frame.2) (configure {} rule)

/-- Its events on the frames. -/
def events : List RuleEvent :=
  emitted (fun e frame => evaluate srt e frame.1 frame.2) (configure {} rule) frames

/-- Its events under the ids of their tracks. -/
def eventsByTrack : List (ℤ × RuleEvent) := emitted (evaluateByTrack srt) (configure {} rule) frames

theorem map_snd_eventsByTrack :
    (eventsByTrack srt rule frames).map (·.2) = events srt rule frames :=
  map_snd_emitted (withoutIds_evaluateByTrack srt) _ frames

end CountingEvaluator

namespace CrossLineEvaluator

variable (srt : PairSorter) (rule : AnalysisRule) (frames : List RuleFrame)

/-- The events of an evaluator configured with the rule. -/
def events : List RuleEvent :=
  emitted (fun e frame => evaluate srt e frame.1 frame.2) (configure {} rule) frames

/-- Its events under the ids of their tracks. -/
def eventsByTrack : List (ℤ × RuleEvent) := emitted (evaluateByTrack srt) (configure {} rule) frames

theorem map_snd_eventsByTrack :
    (eventsByTrack srt rule frames).map (·.2) = events srt rule frames :=
  map_snd_emitted (withoutIds_evaluateByTrack srt) _ frames

end CrossLineEvaluator

/-- The rules have one line and one filter; the directions they report, and what else there is in
them, may differ. -/
structure SameLine (a b : AnalysisRule) : Prop where
  start : a.line.start = b.line.start
  stop : a.line.stop = b.line.stop
  minConfidence : a.minConfidence = b.minConfidence
  targetClasses : a.targetClasses = b.targetClasses

/-- A `CountingEvaluator` and a `CrossLineEvaluator` on the same frames. -/
structure Agreement (srt : PairSorter) (counting crossing : AnalysisRule)
    (frames : List RuleFrame) : Prop where
  same : crossing.line.bidirectional = true →
    (CrossLineEvaluator.events srt crossing frames).map noticeOf =
      (CountingEvaluator.events srt counting frames).map noticeOf
  oneWay : crossing.line.bidirectional = false →
    (CrossLineEvaluator.events srt crossing frames).map noticeOf =
      ((CountingEvaluator.events srt counting frames).map noticeOf).filter
        fun notice => notice.direction = "A_to_B"
  tallied : CountingEvaluator.Tallied (CountingEvaluator.after srt counting frames)
    (CountingEvaluator.events srt counting frames)
  alternate : ∀ trackId, ((ofTrack trackId (CountingEvaluator.eventsByTrack srt counting
    frames)).map (·.direction)).IsChain (· ≠ ·)
  alternate_crossLine : crossing.line.bidirectional = true → ∀ trackId,
    ((ofTrack trackId (CrossLineEvaluator.eventsByTrack srt crossing frames)).map
      (·.direction)).IsChain (· ≠ ·)

theorem lineWatch_congr (srt : PairSorter) {a b : AnalysisRule} (h : SameLine a b) :
    lineWatch srt a = lineWatch srt b := by
  have hfilter : filterDetections a = filterDetections b := by
    funext detections
    rw [filterDetections, filterDetections, h.minConfidence, h.targetClasses]
  have hvisit : noticeVisit a = noticeVisit b := by
    funext context last track
    have hside : currentSide a track context = currentSide b track context := by
      rw [currentSide, currentSide, h.start, h.stop]
    rw [noticeVisit, noticeVisit, lineVisit, lineVisit, hside]
  funext s frame
  simp only [lineWatch, watch, hfilter, hvisit]

/-- **What is emitted for a track**: the changes among all that is seen of it but the first. -/
theorem emitted_lineWatch (srt : PairSorter) (rule : AnalysisRule) {width height : ℤ}
    {frames : List RuleFrame} (hsize : ∀ frame ∈ frames, OfSize width height frame.2)
    (trackId : ℤ) :
    ((emitted (lineWatch srt rule) (newWatch ℤ) frames).filter fun o => o.1 = trackId).map (·.2) =
      changes (offLine (sightings rule (views srt rule trackId newTracker frames)).tail) := by
  have hviews : ∀ view ∈ views srt rule trackId newTracker frames, OfSize width height view.1 :=
    forall_views hsize
  obtain ⟨hout, hlife⟩ := @emitted_newWatch _ _ srt rule (noticeVisit rule) frames trackId
  refine hout.trans ?_
  split at hlife
  · exact followed_unborn (by decide) hlife hviews
  · obtain ⟨hnone, hshown⟩ := followed_gone (noticeVisit rule) hlife none
    rw [sightings_of_none hshown]
    exact hnone

theorem map_noticeOf_ofTrack {out : List (ℤ × RuleEvent)} {notices : List (ℤ × Notice)}
    (h : out.map taggedNotice = notices) (trackId : ℤ) :
    (ofTrack trackId out).map noticeOf = (notices.filter fun o => o.1 = trackId).map (·.2) := by
  subst h
  rw [ofTrack, List.filter_map, List.map_map, List.map_map]
  rfl

theorem reported_of_bidirectional {rule : AnalysisRule} (h : rule.line.bidirectional = true)
    (out : List (ℤ × Notice)) : reported rule out = out :=
  List.filter_eq_self.mpr fun o _ => by simp [reports, h]

/-- **Counting agrees with cross-line detection.** -/
theorem counting_agrees (srt : PairSorter) {counting crossing : AnalysisRule}
    (hline : SameLine counting crossing) {width height : ℤ} {frames : List RuleFrame}
    (hsize : ∀ frame ∈ frames, OfSize width height frame.2) :
    Agreement srt counting crossing frames := by
  set watched := emitted (lineWatch srt counting) (newWatch ℤ) frames with hwatched
  have hcounting : (CountingEvaluator.eventsByTrack srt counting frames).map taggedNotice =
      watched := CountingEvaluator.taggedNotices_counting srt counting frames
  have hcrossing : (CrossLineEvaluator.eventsByTrack srt crossing frames).map taggedNotice =
      reported crossing watched := by
    rw [hwatched, lineWatch_congr srt hline]
    exact CrossLineEvaluator.taggedNotices_crossLine srt crossing hsize
  have hcount : (CountingEvaluator.events srt counting frames).map noticeOf =
      watched.map (·.2) := by
    rw [← hcounting, ← CountingEvaluator.map_snd_eventsByTrack, List.map_map, List.map_map]
    rfl
  have hcross : (CrossLineEvaluator.events srt crossing frames).map noticeOf =
      (reported crossing watched).map (·.2) := by
    rw [← hcrossing, ← CrossLineEvaluator.map_snd_eventsByTrack, List.map_map, List.map_map]
    rfl
  have halternate : ∀ trackId,
      (((watched.filter fun o => o.1 = trackId).map (·.2)).map (·.direction)).IsChain
        (· ≠ ·) := by
    intro trackId
    rw [emitted_lineWatch srt counting hsize]
    exact isChain_changes (isSide_of_mem_offLine (List.tail_subset _))
  have hdirections : ∀ events : List RuleEvent,
      events.map (·.direction) = (events.map noticeOf).map (·.direction) := by
    intro events
    rw [List.map_map]
    rfl
  refine ⟨fun hboth => ?_, fun hone => ?_, ?_, fun trackId => ?_, fun hboth trackId => ?_⟩
  · rw [hcross, hcount, reported_of_bidirectional hboth]
  · rw [hcross, hcount, reported, List.filter_map]
    refine congrArg _ (List.filter_congr fun o _ => ?_)
    rw [reports, hone, Bool.false_or]
    rfl
  · exact @CountingEvaluator.tallied_emitted srt frames _ []
      ⟨rfl, rfl, fun i event hevent => by simp at hevent⟩
  · rw [hdirections, map_noticeOf_ofTrack hcounting]
    exact halternate trackId
  · rw [reported_of_bidirectional hboth] at hcrossing
    rw [hdirections, map_noticeOf_ofTrack hcrossing]
    exact halternate trackId

/-- A person who crosses and comes back. -/
theorem counting_agrees_gate : Agreement byIou RuleEngine.gateRule RuleEngine.gateRule
    [RuleEngine.gateFrame 25 1000, RuleEngine.gateFrame 25 2000, RuleEngine.gateFrame 35 3000,
      RuleEngine.gateFrame 25 4000] :=
  @counting_agrees byIou _ _ ⟨rfl, rfl, rfl, rfl⟩ 100 100 _
    (by simp [RuleEngine.gateFrame, OfSize])

end LoongNvr.Rules

/-! ### Are all changes reported?

Whether the changes of side of a track are all reported.  The evaluators skip a track with one
point, and with it the side it was first seen on.
-/

namespace LoongNvr.Rules
open LoongNvr.Core Support IouTracker
open RuleEngine (RuleFrame gateRule gateFrame)

/-- The events under a track's id are the changes of side among what is seen of it. -/
def ChangesReported (seen : List Sighting) (out : List (ℤ × RuleEvent)) (trackId : ℤ) : Prop :=
  (ofTrack trackId out).map noticeOf = changes (offLine seen)

instance (seen : List Sighting) (out : List (ℤ × RuleEvent)) (trackId : ℤ) :
    Decidable (ChangesReported seen out trackId) := inferInstanceAs (Decidable (_ = _))

/-- The first detection lies on the line, or the next one off the line lies on its side, if there is
one. -/
def FirstSideKept : List Sighting → Prop
  | [] => True
  | first :: later => first.side = 0 ∨ ∀ next ∈ (offLine later).head?, next.side = first.side

instance : ∀ seen : List Sighting, Decidable (FirstSideKept seen)
  | [] => inferInstanceAs (Decidable True)
  | first :: later => inferInstanceAs
      (Decidable (first.side = 0 ∨ ∀ next ∈ (offLine later).head?, next.side = first.side))

/-- Without the first sighting there are the same changes exactly if its side makes none. -/
theorem changes_tail_iff (seen : List Sighting) :
    changes (offLine seen.tail) = changes (offLine seen) ↔ FirstSideKept seen := by
  cases seen with
  | nil => exact iff_of_true rfl trivial
  | cons first later =>
      rw [List.tail_cons, offLine_cons, FirstSideKept]
      by_cases hzero : first.side = 0
      · rw [if_pos hzero]
        exact iff_of_true rfl (.inl hzero)
      · rw [if_neg hzero, or_iff_right hzero]
        cases offLine later with
        | nil => exact iff_of_true rfl fun next hnext => by cases hnext
        | cons next rest =>
            rw [← changesFrom_some first, changesFrom, changesFrom_some, change]
            by_cases hsame : first.side = next.side
            · rw [if_pos hsame]
              exact iff_of_true rfl fun other hother => by
                rw [← Option.some.inj hother]
                exact hsame.symm
            · -- one change more
              rw [if_neg hsame]
              refine iff_of_false (fun h => ?_) fun h => hsame (h next rfl).symm
              have hlength := congrArg List.length h
              rw [List.length_append, List.length_singleton] at hlength
              omega

/-- **The changes of side of a track are reported**, by either evaluator, exactly if its first
detection makes none; the events under the ids are those that the evaluators return. -/
theorem changesReported_iff (srt : PairSorter) (rule : AnalysisRule) {width height : ℤ}
    {frames : List RuleFrame} (hsize : ∀ frame ∈ frames, OfSize width height frame.2)
    (trackId : ℤ) :
    let seen := sightings rule (views srt rule trackId newTracker frames)
    ((ChangesReported seen (CountingEvaluator.eventsByTrack srt rule frames) trackId ↔
        FirstSideKept seen) ∧
      (CountingEvaluator.eventsByTrack srt rule frames).map (·.2) =
        CountingEvaluator.events srt rule frames) ∧
    ((rule.line.bidirectional = true →
        (ChangesReported seen (CrossLineEvaluator.eventsByTrack srt rule frames) trackId ↔
          FirstSideKept seen)) ∧
      (CrossLineEvaluator.eventsByTrack srt rule frames).map (·.2) =
        CrossLineEvaluator.events srt rule frames) := by
  intro seen
  have hcounting : (CountingEvaluator.eventsByTrack srt rule frames).map taggedNotice = _ :=
    CountingEvaluator.taggedNotices_counting srt rule frames
  have hcrossing : (CrossLineEvaluator.eventsByTrack srt rule frames).map taggedNotice = _ :=
    CrossLineEvaluator.taggedNotices_crossLine srt rule hsize
  have hseen := emitted_lineWatch srt rule hsize trackId
  refine ⟨⟨?_, CountingEvaluator.map_snd_eventsByTrack srt rule frames⟩, fun hboth => ?_,
    CrossLineEvaluator.map_snd_eventsByTrack srt rule frames⟩
  · rw [ChangesReported, map_noticeOf_ofTrack hcounting, hseen]
    exact changes_tail_iff seen
  · rw [reported_of_bidirectional hboth] at hcrossing
    rw [ChangesReported, map_noticeOf_ofTrack hcrossing, hseen]
    exact changes_tail_iff seen

/-- A person who is seen twice on one side, and then on the other. -/
theorem changesReported_third :
    let frames := [gateFrame 25 1000, gateFrame 25 2000, gateFrame 35 3000]
    let seen := sightings gateRule (views byIou gateRule 1 newTracker frames)
    ChangesReported seen (CountingEvaluator.eventsByTrack byIou gateRule frames) 1 :=
  (@changesReported_iff byIou gateRule 100 100
    [gateFrame 25 1000, gateFrame 25 2000, gateFrame 35 3000]
    (by simp [gateFrame, OfSize]) 1).1.1.mpr (by decide +kernel)

/-- A person who is on the other side at the second detection: nothing is reported. -/
theorem changesReported_refuted :
    let frames := [gateFrame 25 1000, gateFrame 35 2000]
    let seen := sightings gateRule (views byIou gateRule 1 newTracker frames)
    ¬ ChangesReported seen (CountingEvaluator.eventsByTrack byIou gateRule frames) 1 ∧
      ¬ ChangesReported seen (CrossLineEvaluator.eventsByTrack byIou gateRule frames) 1 := by
  decide +kernel

end LoongNvr.Rules
