import LoongNvr.Rules.TrackLife
import LoongNvr.Support.Visits

/-!
# Rules — TrackVisits

The evaluators' loops, track by track.  An event does not name its track, so the loops are also run
with each event under the id of the track in whose turn it is generated.

* `watch`: a frame for any evaluator that keeps something of each track, by its visit to a track.
* `emitted_watch`: under an id it emits what follows from what the frames show of that id.
* `visitTrack_eq` of the evaluators: the turn of each loop is such a visit.
* `withoutIds_evaluateByTrack` of the evaluators: without the ids they are the events of `Evaluate`.
-/

namespace LoongNvr.Rules
open LoongNvr.Core Support IouTracker
open RuleEngine (RuleFrame)

/-! ### Events under track ids -/

section UnderTrack

variable {σ : Type}

/-- A turn of a loop over the tracks, with the events under the id of its track. -/
def underTrack (visitTrack : σ × List RuleEvent → TrackedObject → σ × List RuleEvent)
    (acc : σ × List (ℤ × RuleEvent)) (track : TrackedObject) : σ × List (ℤ × RuleEvent) :=
  let (state, events) := visitTrack (acc.1, []) track
  (state, acc.2 ++ events.map fun event => (track.trackId, event))

/-- The result without the ids. -/
def withoutIds (result : σ × List (ℤ × RuleEvent)) : σ × List RuleEvent :=
  (result.1, result.2.map (·.2))

/-- The events under a track's id. -/
def ofTrack (trackId : ℤ) (out : List (ℤ × RuleEvent)) : List RuleEvent :=
  (out.filter fun o => o.1 = trackId).map (·.2)

/-- The turns only add events, and do not look at those there are. -/
def Appends (visitTrack : σ × List RuleEvent → TrackedObject → σ × List RuleEvent) : Prop :=
  ∀ state events track, visitTrack (state, events) track =
    ((visitTrack (state, []) track).1, events ++ (visitTrack (state, []) track).2)

theorem withoutIds_foldl
    {visitTrack : σ × List RuleEvent → TrackedObject → σ × List RuleEvent}
    (h : Appends visitTrack) (tracks : List TrackedObject) (state : σ) :
    withoutIds (tracks.foldl (underTrack visitTrack) (state, [])) =
      tracks.foldl visitTrack (state, []) := by
  refine (List.foldl_hom withoutIds fun acc track => ?_).symm
  rw [withoutIds, h]
  simp [underTrack, withoutIds, Function.comp_def]

/-- Along a run too. -/
theorem map_snd_emitted {byTrack : σ → RuleFrame → σ × List (ℤ × RuleEvent)}
    {evaluate : σ → RuleFrame → σ × List RuleEvent}
    (h : ∀ e frame, withoutIds (byTrack e frame) = evaluate e frame) (e : σ)
    (frames : List RuleFrame) :
    (emitted byTrack e frames).map (·.2) = emitted evaluate e frames := by
  refine map_emitted_eq_of_simulation Eq ?_ rfl frames
  rintro e _ frame rfl
  exact ⟨congrArg Prod.snd (h e frame), congrArg Prod.fst (h e frame)⟩

end UnderTrack

namespace CrossLineEvaluator

/-- `Evaluate` with the events under the ids of their tracks. -/
def evaluateByTrack (srt : PairSorter) (e : CrossLineEvaluator) (frame : RuleFrame) :
    CrossLineEvaluator × List (ℤ × RuleEvent) :=
  let filtered := filterDetections e.rule frame.1
  let tracker := update srt e.tracker filtered
  if filtered.isEmpty then ({ e with tracker := tracker }, [])
  else
    let (lastSide, events) :=
      tracker.tracks.foldl (underTrack (visitTrack e.rule frame.2)) (e.lastSide, [])
    ({ e with tracker := tracker, lastSide := dropStale tracker lastSide }, events)

end CrossLineEvaluator

namespace CountingEvaluator

/-- `Evaluate` with the events under the ids of their tracks. -/
def evaluateByTrack (srt : PairSorter) (e : CountingEvaluator) (frame : RuleFrame) :
    CountingEvaluator × List (ℤ × RuleEvent) :=
  let tracker := update srt e.tracker (filterDetections e.rule frame.1)
  let (e, events) :=
    tracker.tracks.foldl (underTrack (visitTrack frame.2)) ({ e with tracker := tracker }, [])
  ({ e with lastSide := dropStale tracker e.lastSide }, events)

end CountingEvaluator

namespace RegionIntrusionEvaluator

/-- `Evaluate` with the events under the ids of their tracks. -/
def evaluateByTrack (srt : PairSorter) (e : RegionIntrusionEvaluator) (frame : RuleFrame) :
    RegionIntrusionEvaluator × List (ℤ × RuleEvent) :=
  if e.rule.region.vertices.length < 3 then (e, [])
  else
    let tracker := update srt e.tracker (filterDetections e.rule frame.1)
    let (wasInside, events) :=
      tracker.tracks.foldl (underTrack (visitTrack e.rule frame.2)) (e.wasInside, [])
    ({ e with tracker := tracker, wasInside := dropStale tracker wasInside }, events)

end RegionIntrusionEvaluator

namespace LoiteringEvaluator

/-- `Evaluate` with the events under the ids of their tracks. -/
def evaluateByTrack (srt : PairSorter) (e : LoiteringEvaluator) (frame : RuleFrame) :
    LoiteringEvaluator × List (ℤ × RuleEvent) :=
  if e.rule.region.vertices.length < 3 then (e, [])
  else
    let tracker := update srt e.tracker (filterDetections e.rule frame.1)
    let (trackStates, events) :=
      tracker.tracks.foldl (underTrack (visitTrack e.rule frame.2)) (e.trackStates, [])
    ({ e with tracker := tracker, trackStates := dropStale tracker trackStates }, events)

end LoiteringEvaluator

/-! ### Watching tracks -/

section Watch

variable {β ε : Type}

/-- A visit to a track, with what it emits under the track's id. -/
def byId (visit : Visit TrackedObject β ε) : Visit TrackedObject β (ℤ × ε) := fun kept track =>
  ((visit kept track).1, (visit kept track).2.map fun o => (track.trackId, o))

/-- What is watched with: the tracker and what is kept of each track. -/
abbrev Watch (β : Type) := IouTracker × (ℤ → Option β)

/-- The tracker the evaluators start with. -/
def newTracker : IouTracker := { config := trackerConfig }

/-- The tracker, and nothing kept. -/
def newWatch (β : Type) : Watch β := (newTracker, fun _ => none)

/-- A frame: the tracker is updated, each track visited, and what is kept of lost tracks dropped. -/
def watch (srt : PairSorter) (rule : AnalysisRule)
    (visit : FrameContext → Visit TrackedObject β ε) (s : Watch β) (frame : RuleFrame) :
    Watch β × List (ℤ × ε) :=
  let tracker := update srt s.1 (filterDetections rule frame.1)
  let r := tracker.tracks.foldl (visitStep (·.trackId) (byId (visit frame.2))) (s.2, [])
  ((tracker, dropStale tracker r.1), r.2)

/-- What the visits emit along what is shown of one id. -/
def followed (visit : FrameContext → Visit TrackedObject β ε) : Option β → List View → List ε
  | _, [] => []
  | _, (_, none) :: shown => followed visit none shown
  | kept, (context, some track) :: shown =>
      (visit context kept track).2 ++ followed visit (visit context kept track).1 shown

variable {srt : PairSorter} {rule : AnalysisRule} {visit : FrameContext → Visit TrackedObject β ε}

theorem foldl_byId {tracker : IouTracker} (hn : WellNumbered tracker) (context : FrameContext)
    (kept : ℤ → Option β) :
    tracker.tracks.foldl (visitStep (·.trackId) (byId (visit context))) (kept, []) =
      (visited (·.trackId) (byId (visit context)) tracker.tracks kept,
        tracker.tracks.flatMap fun track =>
          (visit context (kept track.trackId) track).2.map fun o => (track.trackId, o)) :=
  foldl_visitStep hn.nodup_trackIds kept []

/-- **What a frame emits under an id** is what the visit to its track does. -/
theorem watch_out {s : Watch β} (hn : WellNumbered s.1) (frame : RuleFrame) (trackId : ℤ) :
    ((watch srt rule visit s frame).2.filter fun o => o.1 = trackId).map (·.2) =
      (((watch srt rule visit s frame).1.1.getTrack trackId).map fun track =>
        (visit frame.2 (s.2 trackId) track).2).getD [] := by
  have hafter : WellNumbered (update srt s.1 (filterDetections rule frame.1)) :=
    update_wellNumbered hn
  have htag := @filter_flatMap_of_tag ℤ TrackedObject (ℤ × ε) _ (·.trackId) (·.1)
    (fun track => (visit frame.2 (s.2 track.trackId) track).2.map fun o => (track.trackId, o))
    trackId _ hafter.nodup_trackIds (fun track _ o ho => by
      obtain ⟨o', -, rfl⟩ := List.mem_map.mp ho
      rfl)
  simp only [watch, foldl_byId hafter]
  rw [htag, getTrack]
  cases hfind : (update srt s.1 (filterDetections rule frame.1)).tracks.find?
      fun track => track.trackId == trackId with
  | none => rfl
  | some track =>
      have hid : track.trackId = trackId := by simpa using List.find?_some hfind
      subst hid
      simp [Function.comp_def]

/-- What is kept under an id after a frame. -/
theorem watch_kept {s : Watch β} (hn : WellNumbered s.1) (frame : RuleFrame) (trackId : ℤ) :
    (watch srt rule visit s frame).1.2 trackId =
      ((watch srt rule visit s frame).1.1.getTrack trackId).bind fun track =>
        (visit frame.2 (s.2 trackId) track).1 := by
  have hafter : WellNumbered (update srt s.1 (filterDetections rule frame.1)) :=
    update_wellNumbered hn
  simp only [watch, foldl_byId hafter, dropStale, getTrack, visited]
  rcases Option.eq_none_or_eq_some ((update srt s.1 (filterDetections rule frame.1)).tracks.find?
    fun track => track.trackId == trackId) with hfind | ⟨track, hfind⟩
  · simp [hfind]
  · simp [hfind, byId]

/-- **What a run emits under an id** follows from what its frames show of the id. -/
theorem emitted_watch (frames : List RuleFrame) {s : Watch β} (hn : WellNumbered s.1)
    (trackId : ℤ) :
    ((emitted (watch srt rule visit) s frames).filter fun o => o.1 = trackId).map (·.2) =
      followed visit (s.2 trackId) (views srt rule trackId s.1 frames) := by
  induction frames generalizing s with
  | nil => rfl
  | cons frame frames ih =>
      have hlater := @ih (watch srt rule visit s frame).1 (update_wellNumbered hn)
      have hout := @watch_out _ _ srt rule visit s hn frame trackId
      rw [watch_kept hn frame] at hlater
      rw [emitted, List.filter_append, List.map_append, hlater, hout]
      show _ = followed visit (s.2 trackId) ((frame.2, (watch srt rule visit s
        frame).1.1.getTrack trackId) :: views srt rule trackId (watch srt rule visit s frame).1.1
          frames)
      cases (watch srt rule visit s frame).1.1.getTrack trackId with
      | none => rfl
      | some track => rfl

/-- At the start an id is still to be given, or is never given. -/
theorem stageOf_newTracker (trackId : ℤ) :
    stageOf newTracker trackId = if 1 ≤ trackId then .unborn else .gone :=
  stageOf_of_none rfl

/-- **From the start on**, what is emitted under an id follows from what the frames show of it. -/
theorem emitted_newWatch (frames : List RuleFrame) (trackId : ℤ) :
    ((emitted (watch srt rule visit) (newWatch β) frames).filter fun o => o.1 = trackId).map
        (·.2) = followed visit none (views srt rule trackId newTracker frames) ∧
      Life trackerConfig trackId (if 1 ≤ trackId then .unborn else .gone)
        (views srt rule trackId newTracker frames) := by
  have hn : WellNumbered newTracker := wellNumbered_new _
  rw [← stageOf_newTracker]
  exact ⟨@emitted_watch _ _ srt rule visit frames (newWatch β) hn trackId,
    life_views srt rule trackId frames hn⟩

end Watch

/-! ### The turns of the loops -/

/-- A turn that is a visit, with its events under the id. -/
theorem underTrack_visitStep {β : Type} (visit : Visit TrackedObject β RuleEvent) :
    underTrack (visitStep (·.trackId) visit) = visitStep (·.trackId) (byId visit) := by
  funext acc track
  simp [underTrack, visitStep, byId]

theorem appends_visitStep {β : Type} (visit : Visit TrackedObject β RuleEvent) :
    Appends (visitStep (·.trackId) visit) := by
  intro kept events track
  simp [visitStep]

/-- A visit that looks at the side of the line the track is on; `emit` is given the direction of a
crossing. -/
def lineVisit {ε : Type} (rule : AnalysisRule) (emit : TrackedObject → String → List ε)
    (context : FrameContext) : Visit TrackedObject ℤ ε := fun last track =>
  if !track.active || track.trajectory.length < 2 then (last, [])
  else
    let side := currentSide rule track context
    if side = 0 then (last, [])
    else
      (some side, match last with
        | none => []
        | some prev =>
            if prev ≠ 0 ∧ prev ≠ side then emit track (crossingDirection prev side) else [])

namespace CrossLineEvaluator

/-- The events of a crossing in a direction. -/
def crossing (rule : AnalysisRule) (context : FrameContext) (track : TrackedObject)
    (direction : String) : List RuleEvent :=
  if !rule.line.bidirectional && direction != "A_to_B" then []
  else [{ makeEvent rule .crossLine context track with severity := .alarm, direction := direction }]

theorem visitTrack_eq (rule : AnalysisRule) (context : FrameContext) :
    visitTrack rule context =
      visitStep (·.trackId) (lineVisit rule (crossing rule context) context) := by
  funext ⟨lastSide, events⟩ track
  simp only [visitTrack, visitStep, lineVisit]
  split
  · simp
  · split
    · simp
    · cases lastSide track.trackId with
      | none => simp
      | some prev =>
          dsimp only
          split
          · simp only [crossing]
            split <;> simp
          · simp

theorem withoutIds_evaluateByTrack (srt : PairSorter) (e : CrossLineEvaluator)
    (frame : RuleFrame) :
    withoutIds (e.evaluateByTrack srt frame) = e.evaluate srt frame.1 frame.2 := by
  have happends : Appends (visitTrack e.rule frame.2) :=
    visitTrack_eq e.rule frame.2 ▸ appends_visitStep _
  simp only [evaluateByTrack, evaluate]
  split
  · rfl
  · rw [← withoutIds_foldl happends]
    rfl

end CrossLineEvaluator

namespace RegionIntrusionEvaluator

/-- The visit to a track: an event where it is inside and was not. -/
def visit (rule : AnalysisRule) (context : FrameContext) : Visit TrackedObject Bool RuleEvent :=
  fun was track =>
    if !track.active || track.trajectory.isEmpty then (was, [])
    else
      let inside := pointInPolygon (currentCenter track context) rule.region.vertices
      (some inside, if inside ∧ was ≠ some true then
        [{ makeEvent rule .regionIntrusion context track with
            severity := .alarm, direction := "enter" }] else [])

theorem visitTrack_eq (rule : AnalysisRule) (context : FrameContext) :
    visitTrack rule context = visitStep (·.trackId) (visit rule context) := by
  funext ⟨wasInside, events⟩ track
  simp only [visitTrack, visitStep, visit]
  split
  · simp
  · cases wasInside track.trackId with
    | none =>
        dsimp only
        split <;> simp_all
    | some was =>
        dsimp only
        cases was <;> split <;> simp_all

theorem withoutIds_evaluateByTrack (srt : PairSorter) (e : RegionIntrusionEvaluator)
    (frame : RuleFrame) :
    withoutIds (e.evaluateByTrack srt frame) = e.evaluate srt frame.1 frame.2 := by
  have happends : Appends (visitTrack e.rule frame.2) :=
    visitTrack_eq e.rule frame.2 ▸ appends_visitStep _
  simp only [evaluateByTrack, evaluate]
  split
  · rfl
  · rw [← withoutIds_foldl happends]
    rfl

end RegionIntrusionEvaluator

namespace LoiteringEvaluator

/-- The visit to a track: an event where it is inside and due for an alert. -/
def visit (rule : AnalysisRule) (context : FrameContext) :
    Visit TrackedObject LoiterState RuleEvent := fun kept track =>
  if !track.active || track.trajectory.isEmpty then (kept, [])
  else
    let state := kept.getD {}
    if pointInPolygon (currentCenter track context) rule.region.vertices then
      let state := enter context state
      if shouldAlert rule context state then
        (some { state with alerted := true, lastAlertMs := context.timestampMs },
          [{ makeEvent rule .loitering context track with
              severity := .alarm
              dwellTimeSec := toInt32 ((context.timestampMs - state.enterTimestampMs).tdiv 1000) }])
      else (some state, [])
    else (some (leave state), [])

theorem visitTrack_eq (rule : AnalysisRule) (context : FrameContext) :
    visitTrack rule context = visitStep (·.trackId) (visit rule context) := by
  funext ⟨trackStates, events⟩ track
  simp only [visitTrack, visitStep, visit]
  split
  · simp
  · split
    · split <;> simp
    · simp

theorem withoutIds_evaluateByTrack (srt : PairSorter) (e : LoiteringEvaluator)
    (frame : RuleFrame) :
    withoutIds (e.evaluateByTrack srt frame) = e.evaluate srt frame.1 frame.2 := by
  have happends : Appends (visitTrack e.rule frame.2) :=
    visitTrack_eq e.rule frame.2 ▸ appends_visitStep _
  simp only [evaluateByTrack, evaluate]
  split
  · rfl
  · rw [← withoutIds_foldl happends]
    rfl

end LoiteringEvaluator

end LoongNvr.Rules
