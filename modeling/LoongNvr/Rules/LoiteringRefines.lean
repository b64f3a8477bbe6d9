import LoongNvr.Rules.Schedule
import LoongNvr.Rules.StayAlerts

/-!
# Rules — LoiteringRefines

A `RegionIntrusionEvaluator` and a `LoiteringEvaluator` on one region.

* `evaluateByTrack_watch` of the evaluators: with a region a frame is a frame of a watch.
* `alike_visits`: without a threshold and a cooldown the visits of the two alert alike.
* `loitering_refines_intrusion`: a notice at the beginning of each stay, and the alerts of each
  stay.
-/

namespace LoongNvr.Rules
open LoongNvr.Core Support IouTracker
open RuleEngine (RuleFrame)

/-- A rule's region has an inside. -/
def HasRegion (rule : AnalysisRule) : Prop := 3 ≤ rule.region.vertices.length

namespace RegionIntrusionEvaluator

variable (srt : PairSorter) (rule : AnalysisRule) (frames : List RuleFrame)

/-- The events of an evaluator configured with the rule. -/
def events : List RuleEvent :=
  emitted (fun e frame => evaluate srt e frame.1 frame.2) (configure {} rule) frames

/-- Its events under the ids of their tracks. -/
def eventsByTrack : List (ℤ × RuleEvent) := emitted (evaluateByTrack srt) (configure {} rule) frames

theorem map_snd_eventsByTrack :
    (eventsByTrack srt rule frames).map (·.2) = events srt rule frames :=
  map_snd_emitted (withoutIds_evaluateByTrack srt) _ frames

variable {rule}

theorem evaluateByTrack_watch {e : RegionIntrusionEvaluator} (h : HasRegion e.rule)
    (frame : RuleFrame) :
    let watched := watch srt e.rule (visit e.rule) (e.tracker, e.wasInside) frame
    e.evaluateByTrack srt frame =
      ({ e with tracker := watched.1.1, wasInside := watched.1.2 }, watched.2) := by
  rw [evaluateByTrack, if_neg (not_lt.mpr h), visitTrack_eq, underTrack_visitStep]
  rfl

/-- A run of frames is a run of the watch. -/
theorem eventsByTrack_eq (h : HasRegion rule) :
    eventsByTrack srt rule frames =
      emitted (watch srt rule (visit rule)) (newWatch Bool) frames := by
  have hstart : configure {} rule =
      { rule := rule, tracker := newTracker, wasInside := fun _ => none } :=
    if_neg (not_lt.mpr h)
  rw [eventsByTrack, hstart, ← List.map_id (emitted (evaluateByTrack srt) _ frames)]
  refine map_emitted_eq_of_simulation (fun (e : RegionIntrusionEvaluator) s =>
    e.rule = rule ∧ (e.tracker, e.wasInside) = s) ?_ ⟨rfl, rfl⟩ frames
  rintro e _ frame ⟨rfl, rfl⟩
  rw [silent, silent, evaluateByTrack_watch srt h, List.map_id]
  exact ⟨rfl, rfl, rfl⟩

end RegionIntrusionEvaluator

namespace LoiteringEvaluator

variable (srt : PairSorter) (rule : AnalysisRule) (frames : List RuleFrame)

/-- The events of an evaluator configured with the rule. -/
def events : List RuleEvent :=
  emitted (fun e frame => evaluate srt e frame.1 frame.2) (configure {} rule) frames

/-- Its events under the ids of their tracks. -/
def eventsByTrack : List (ℤ × RuleEvent) := emitted (evaluateByTrack srt) (configure {} rule) frames

theorem map_snd_eventsByTrack :
    (eventsByTrack srt rule frames).map (·.2) = events srt rule frames :=
  map_snd_emitted (withoutIds_evaluateByTrack srt) _ frames

variable {rule}

theorem evaluateByTrack_watch {e : LoiteringEvaluator} (h : HasRegion e.rule)
    (frame : RuleFrame) :
    let watched := watch srt e.rule (visit e.rule) (e.tracker, e.trackStates) frame
    e.evaluateByTrack srt frame =
      ({ e with tracker := watched.1.1, trackStates := watched.1.2 }, watched.2) := by
  rw [evaluateByTrack, if_neg (not_lt.mpr h), visitTrack_eq, underTrack_visitStep]
  rfl

/-- A run of frames is a run of the watch. -/
theorem eventsByTrack_eq (h : HasRegion rule) :
    eventsByTrack srt rule frames =
      emitted (watch srt rule (visit rule)) (newWatch LoiterState) frames := by
  have hstart : configure {} rule =
      { rule := rule, tracker := newTracker, trackStates := fun _ => none } :=
    if_neg (not_lt.mpr h)
  rw [eventsByTrack, hstart, ← List.map_id (emitted (evaluateByTrack srt) _ frames)]
  refine map_emitted_eq_of_simulation (fun (e : LoiteringEvaluator) s =>
    e.rule = rule ∧ (e.tracker, e.trackStates) = s) ?_ ⟨rfl, rfl⟩ frames
  rintro e _ frame ⟨rfl, rfl⟩
  rw [silent, silent, evaluateByTrack_watch srt h, List.map_id]
  exact ⟨rfl, rfl, rfl⟩

end LoiteringEvaluator

/-! ### Stay by stay -/

/-- **Along a run**, what is emitted for a track is what the machine gives out in its stays. -/
theorem LooksAt.emitted {β γ σ : Type} {rule : AnalysisRule}
    {visit : FrameContext → Visit TrackedObject β RuleEvent} {read : RuleEvent → γ}
    {step : σ → Option Alert → σ × List γ} {start : σ} {Rel : Option β → σ → Prop}
    (h : LooksAt rule visit read step start Rel) (srt : PairSorter) (frames : List RuleFrame)
    (trackId : ℤ) :
    (ofTrack trackId (emitted (watch srt rule visit) (newWatch β) frames)).map read =
      (stays (looks rule (views srt rule trackId newTracker frames))).flatMap fun stay =>
        Support.emitted step start (stay.map some) := by
  obtain ⟨hout, hlife⟩ := @emitted_newWatch _ _ srt rule visit frames trackId
  rw [ofTrack, hout]
  split at hlife
  · exact h.followed_unborn hlife
  · obtain ⟨hnone, hlooks⟩ := h.followed_inactive hlife (fun _ htrack => by cases htrack)
      (by simp) none
    rw [← emitted_eq_flatMap_stays h.anew, emitted_of_forall_none h.anew hlooks, hnone]
    rfl

/-- The alerts of a stay do not go back in time where the frames do not. -/
theorem pairwise_of_mem_stays {rule : AnalysisRule} {srt : PairSorter} {trackId : ℤ}
    {frames : List RuleFrame}
    (horder : frames.Pairwise fun a b => a.2.timestampMs ≤ b.2.timestampMs) :
    ∀ stay ∈ stays (looks rule (views srt rule trackId newTracker frames)),
      stay.Pairwise fun a b => a.timestamp ≤ b.timestamp := by
  have hviews : ∀ (frames : List RuleFrame) (tracker : IouTracker),
      (views srt rule trackId tracker frames).map (·.1) = frames.map (·.2) := by
    intro frames
    induction frames with
    | nil => exact fun _ => rfl
    | cons frame frames ih => exact fun tracker => congrArg (frame.2 :: ·) (ih _)
  have hcontexts : (views srt rule trackId newTracker frames).Pairwise
      fun a b => a.1.timestampMs ≤ b.1.timestampMs := by
    have hframes : (frames.map (·.2)).Pairwise fun a b => a.timestampMs ≤ b.timestampMs :=
      List.pairwise_map.mpr horder
    rw [← hviews frames newTracker, List.pairwise_map] at hframes
    exact hframes
  have htime : ∀ (view : View) (a : Alert), look rule view = some a →
      a.timestamp = view.1.timestampMs := by
    rintro ⟨context, _ | track⟩ a h
    · cases h
    · rw [look] at h
      dsimp only at h
      split at h
      · exact (congrArg Alert.timestamp (Option.some.inj h)).symm
      · cases h
  have hlooks : (looks rule (views srt rule trackId newTracker frames)).reduceOption.Pairwise
      fun a b => a.timestamp ≤ b.timestamp := by
    rw [looks, List.reduceOption, List.filterMap_map]
    refine hcontexts.filterMap _ fun view view' hle a ha b hb => ?_
    rw [htime view a ha, htime view' b hb]
    exact hle
  exact fun stay hstay => hlooks.sublist (sublist_of_mem_stays stay hstay)

/-! ### One region -/

/-- The rules have one region and one filter. -/
structure SameRegion (a b : AnalysisRule) : Prop where
  region : a.region = b.region
  minConfidence : a.minConfidence = b.minConfidence
  targetClasses : a.targetClasses = b.targetClasses

/-- The alert of a notice. -/
def Notice.alert (notice : Notice) : Alert :=
  { timestamp := notice.timestamp, triggerDetection := notice.triggerDetection }

/-- Inside with the one alert of the stay, or not inside. -/
inductive AlikeStays : Bool → Option (ℤ × Option ℤ) → Prop
  | outside : AlikeStays false none
  | inside (entryMs lastMs : ℤ) : AlikeStays true (some (entryMs, some lastMs))

/-- With neither a threshold nor a cooldown the one alert of a stay is the alert of its entry. -/
theorem AlikeStays.step {was : Bool} {stay : Option (ℤ × Option ℤ)} (h : AlikeStays was stay)
    (seen : Option Alert) :
    (enterStep was seen).2.map Notice.alert = (loiterStep 0 0 stay seen).2 ∧
      AlikeStays (enterStep was seen).1 (loiterStep 0 0 stay seen).1 := by
  cases seen with
  | none => exact ⟨rfl, .outside⟩
  | some a =>
      cases h with
      | outside =>
          have hnow : loiterStep 0 0 none (some a) =
              (some (a.timestamp, some a.timestamp), [a]) := by simp [loiterStep]
          rw [hnow]
          exact ⟨rfl, .inside _ _⟩
      | inside entryMs lastMs =>
          have hlater : loiterStep 0 0 (some (entryMs, some lastMs)) (some a) =
              (some (entryMs, some lastMs), []) := by simp [loiterStep]
          rw [hlater]
          exact ⟨rfl, .inside _ _⟩

/-- What the two evaluators keep of a track. -/
def Alike (was : Option Bool) (kept : Option LoiterState) : Prop :=
  ∃ stay, AlikeStays (was == some true) stay ∧ LoiteringEvaluator.Keeps kept stay

theorem alike_none : Alike none none := ⟨none, .outside, rfl⟩

section Alike

variable {intrusion loitering : AnalysisRule}

theorem SameRegion.look (h : SameRegion intrusion loitering) (view : View) :
    look loitering view = look intrusion view := by
  obtain ⟨context, _ | track⟩ := view
  · rfl
  · rw [Rules.look, Rules.look, h.region]

theorem SameRegion.filterDetections (h : SameRegion intrusion loitering) :
    filterDetections loitering = filterDetections intrusion := by
  funext detections
  rw [Rules.filterDetections, Rules.filterDetections, h.minConfidence, h.targetClasses]

/-- **The visits to a track**, without a threshold and a cooldown. -/
theorem alike_visits (h : SameRegion intrusion loitering) (hloiter : loitering.loiterTimeSec = 0)
    (hcooldown : loitering.cooldownSec = 0) (context : FrameContext) (track : TrackedObject)
    {was : Option Bool} {kept : Option LoiterState} (halike : Alike was kept) :
    Alike (RegionIntrusionEvaluator.visit intrusion context was track).1
        (LoiteringEvaluator.visit loitering context kept track).1 ∧
      (RegionIntrusionEvaluator.visit intrusion context was track).2.map alertOf =
        (LoiteringEvaluator.visit loitering context kept track).2.map alertOf := by
  by_cases hskip : (!track.active || track.trajectory.isEmpty) = true
  · rw [RegionIntrusionEvaluator.visit, LoiteringEvaluator.visit, if_pos hskip, if_pos hskip]
    exact ⟨halike, rfl⟩
  · obtain ⟨hactive, hpoints⟩ : track.active = true ∧ track.trajectory ≠ [] := by
      simpa using hskip
    obtain ⟨stay, hstays, hkeeps⟩ := halike
    obtain ⟨henter, hwas⟩ := (RegionIntrusionEvaluator.looksAt intrusion).visits context was track
      _ hactive hpoints rfl
    obtain ⟨halert, hkept⟩ := (LoiteringEvaluator.looksAt loitering).visits context kept track
      stay hactive hpoints hkeeps
    rw [h.look, hloiter, hcooldown, zero_mul] at halert hkept
    obtain ⟨hout, hnext⟩ := hstays.step (look intrusion (context, some track))
    rw [hwas] at hnext
    refine ⟨⟨_, hnext, hkept⟩, ?_⟩
    calc (RegionIntrusionEvaluator.visit intrusion context was track).2.map alertOf
        = ((RegionIntrusionEvaluator.visit intrusion context was track).2.map noticeOf).map
            Notice.alert := by
          rw [List.map_map]
          rfl
      _ = _ := by rw [henter, hout, halert]

/-- **The alerts of a run of frames**, without a threshold and a cooldown. -/
theorem map_alertOf_events (srt : PairSorter) (h : SameRegion intrusion loitering)
    (hregion : HasRegion intrusion) (hloiter : loitering.loiterTimeSec = 0)
    (hcooldown : loitering.cooldownSec = 0) (frames : List RuleFrame) :
    (LoiteringEvaluator.events srt loitering frames).map alertOf =
      (RegionIntrusionEvaluator.events srt intrusion frames).map alertOf := by
  have hregion' : HasRegion loitering := by
    rw [HasRegion, ← h.region]
    exact hregion
  rw [← LoiteringEvaluator.map_snd_eventsByTrack, ← RegionIntrusionEvaluator.map_snd_eventsByTrack,
    LoiteringEvaluator.eventsByTrack_eq srt frames hregion',
    RegionIntrusionEvaluator.eventsByTrack_eq srt frames hregion, List.map_map, List.map_map]
  refine (emitted_map_eq_of_simulation (fun (s : Watch Bool) (s' : Watch LoiterState) =>
    s.1 = s'.1 ∧ ∀ trackId, Alike (s.2 trackId) (s'.2 trackId)) ?_
    ⟨rfl, fun _ => alike_none⟩ frames).symm
  rintro ⟨tracker, was⟩ ⟨_, kept⟩ frame ⟨rfl, halike⟩
  have hvisit : ∀ track : TrackedObject, ∀ was kept, Alike was kept →
      Alike (byId (RegionIntrusionEvaluator.visit intrusion frame.2) was track).1
          (byId (LoiteringEvaluator.visit loitering frame.2) kept track).1 ∧
        (byId (RegionIntrusionEvaluator.visit intrusion frame.2) was track).2.map
            (alertOf ∘ (·.2)) =
          (byId (LoiteringEvaluator.visit loitering frame.2) kept track).2.map
            (alertOf ∘ (·.2)) := by
    intro track was kept halike
    obtain ⟨hnext, hout⟩ := alike_visits h hloiter hcooldown frame.2 track halike
    refine ⟨hnext, ?_⟩
    rw [byId, byId, List.map_map, List.map_map]
    exact hout
  obtain ⟨hkept, hout⟩ := @foldl_visitStep_sim _ _ _ _ _ _ _ _
    (fun track : TrackedObject => track.trackId) _ _ _ _ _
    (update srt tracker (filterDetections intrusion frame.1)).tracks (fun track _ => hvisit track)
    _ _ [] [] halike rfl
  simp only [silent, watch, h.filterDetections]
  refine ⟨hout, trivial, fun trackId => ?_⟩
  rw [dropStale, dropStale]
  split
  · exact hkept trackId
  · exact alike_none

end Alike

/-- A `RegionIntrusionEvaluator` and a `LoiteringEvaluator` on the same frames. -/
structure Refinement (srt : PairSorter) (intrusion loitering : AnalysisRule)
    (frames : List RuleFrame) : Prop where
  /-- A notice at the beginning of each stay of a track. -/
  enters : ∀ trackId,
    (ofTrack trackId (RegionIntrusionEvaluator.eventsByTrack srt intrusion frames)).map noticeOf =
      (stays (looks intrusion (views srt intrusion trackId newTracker frames))).flatMap
        fun stay => (stay.take 1).map Alert.enters
  /-- Without a threshold and a cooldown. -/
  same : loitering.loiterTimeSec = 0 → loitering.cooldownSec = 0 →
    (LoiteringEvaluator.events srt loitering frames).map alertOf =
      (RegionIntrusionEvaluator.events srt intrusion frames).map alertOf
  /-- The alerts of each stay of a track. -/
  alerts : (frames.Pairwise fun a b => a.2.timestampMs ≤ b.2.timestampMs) → ∀ trackId,
    (ofTrack trackId (LoiteringEvaluator.eventsByTrack srt loitering frames)).map alertOf =
      (stays (looks loitering (views srt loitering trackId newTracker frames))).flatMap
        (stayAlerts (loitering.loiterTimeSec * 1000) (loitering.cooldownSec * 1000))
  /-- Under the ids of the tracks are the events that the evaluators return. -/
  events_intrusion : (RegionIntrusionEvaluator.eventsByTrack srt intrusion frames).map (·.2) =
    RegionIntrusionEvaluator.events srt intrusion frames
  events_loitering : (LoiteringEvaluator.eventsByTrack srt loitering frames).map (·.2) =
    LoiteringEvaluator.events srt loitering frames

/-- **Loitering refines intrusion.** -/
theorem loitering_refines_intrusion (srt : PairSorter) {intrusion loitering : AnalysisRule}
    (hregion : HasRegion intrusion) (h : SameRegion intrusion loitering)
    (frames : List RuleFrame) : Refinement srt intrusion loitering frames where
  enters trackId := by
    rw [RegionIntrusionEvaluator.eventsByTrack_eq srt frames hregion,
      (RegionIntrusionEvaluator.looksAt intrusion).emitted srt frames trackId]
    exact List.flatMap_congr fun stay _ => emitted_enterStep stay
  same hloiter hcooldown := map_alertOf_events srt h hregion hloiter hcooldown frames
  alerts horder trackId := by
    have hregion' : HasRegion loitering := by
      rw [HasRegion, ← h.region]
      exact hregion
    rw [LoiteringEvaluator.eventsByTrack_eq srt frames hregion',
      (LoiteringEvaluator.looksAt loitering).emitted srt frames trackId]
    exact List.flatMap_congr fun stay hstay =>
      emitted_loiterStep (pairwise_of_mem_stays horder stay hstay)
  events_intrusion := RegionIntrusionEvaluator.map_snd_eventsByTrack srt intrusion frames
  events_loitering := LoiteringEvaluator.map_snd_eventsByTrack srt loitering frames

/-- A rule that allows a minute, and then alerts every other minute. -/
def lingeringRule : AnalysisRule :=
  { RuleEngine.nightRule with type := .loitering, loiterTimeSec := 60, cooldownSec := 120 }

/-- A person who stays for five minutes. -/
theorem loitering_refines_intrusion_person :
    let frames := [RuleEngine.personAt 1, RuleEngine.personAt 2, RuleEngine.personAt 3,
      RuleEngine.personAt 4, RuleEngine.personAt 5]
    Refinement byIou RuleEngine.nightRule lingeringRule frames ∧
      (LoiteringEvaluator.eventsByTrack byIou lingeringRule frames).map
        (fun o => (o.1, o.2.timestamp)) = [(1, 120000), (1, 240000)] := by
  intro frames
  have hregion : HasRegion RuleEngine.nightRule := by simp [HasRegion, RuleEngine.nightRule]
  exact ⟨@loitering_refines_intrusion byIou _ lingeringRule hregion ⟨rfl, rfl, rfl⟩ frames,
    by decide +kernel⟩

end LoongNvr.Rules
