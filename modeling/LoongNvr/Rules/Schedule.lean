import LoongNvr.Rules.FrameRuns

/-!
# Rules — Schedule

A rule has a schedule, "when a rule is active".  It is stored, read back
(`deserializeParams_serializeParams`) and kept in the cache with the rule, and nothing asks it:
neither the engine nor an evaluator compares a frame's time with it.

* `InSchedule`: what it means for a time to be in a schedule.
* `entryEvents_withSchedule`: an entry's events are the same whatever its schedule.
* `scheduleRespected_of_frames`: so a rule fires only inside its schedule when no frame it is
  given lies outside.

Local time is a given function of the timestamp.
-/

namespace LoongNvr.Rules.RuleEngine
open LoongNvr.Core Support IouTracker

/-! ### Times in a schedule -/

/-- A local time: the weekday, 0 for Sunday, and the minute of the day. -/
structure LocalTime where
  weekday : ℤ
  minute : ℕ
  deriving DecidableEq, Repr

/-- The number two digits spell. -/
def twoDigits (a b : Char) : Option ℕ :=
  if a.isDigit && b.isDigit then some ((a.toNat - '0'.toNat) * 10 + (b.toNat - '0'.toNat))
  else none

/-- The minute of the day a text "HH:MM" names. -/
def minuteOfDay (s : String) : Option ℕ :=
  match s.toList with
  | [h₁, h₂, ':', m₁, m₂] => do
      let h ← twoDigits h₁ h₂
      let m ← twoDigits m₁ m₂
      if h < 24 ∧ m < 60 then some (h * 60 + m) else none
  | _ => none

/-- The minute lies between two others, over midnight where the second is the earlier; equal ones
enclose the whole day. -/
def InWindow (start stop minute : ℕ) : Prop :=
  if start < stop then start ≤ minute ∧ minute < stop
  else if stop < start then start ≤ minute ∨ minute < stop
  else True

instance (start stop minute : ℕ) : Decidable (InWindow start stop minute) :=
  inferInstanceAs (Decidable (ite _ _ _))

/-- The rule is to be active at this time. -/
def InSchedule (schedule : RuleSchedule) (time : LocalTime) : Prop :=
  schedule.alwaysActive = true ∨
    ((schedule.weekdays = [] ∨ time.weekday ∈ schedule.weekdays) ∧
      ∃ start ∈ minuteOfDay schedule.startTime, ∃ stop ∈ minuteOfDay schedule.endTime,
        InWindow start stop time.minute)

instance (schedule : RuleSchedule) (time : LocalTime) : Decidable (InSchedule schedule time) :=
  inferInstanceAs (Decidable (_ ∨ _))

/-! ### Events and schedules -/

variable {srt : PairSorter} {channelId : ℤ}

/-- Two entries that differ in their schedules only. -/
structure SameButSchedule (schedule : RuleSchedule) (entry other : EvaluatorEntry) : Prop where
  evaluator : other.evaluator = entry.evaluator.withSchedule schedule
  lastEvent : other.lastEventTimeMs = entry.lastEventTimeMs
  cooldown : other.cooldownMs = entry.cooldownMs

theorem sameButSchedule_makeEntry (schedule : RuleSchedule) (rule : AnalysisRule) :
    SameButSchedule schedule (makeEntry rule) (makeEntry (rule.withSchedule schedule)) where
  evaluator := Evaluator.createEvaluator_withSchedule schedule rule.type rule
  lastEvent := rfl
  cooldown := rfl

/-- A frame gives the two entries the same events and keeps them alike. -/
theorem SameButSchedule.step (srt : PairSorter) {schedule : RuleSchedule}
    {entry other : EvaluatorEntry} (h : SameButSchedule schedule entry other) (frame : RuleFrame) :
    (evaluateEntry srt frame.1 frame.2 other).2 = (evaluateEntry srt frame.1 frame.2 entry).2 ∧
      SameButSchedule schedule (entryStep srt entry frame) (entryStep srt other frame) := by
  have hcool : CoolingDown other frame.2 ↔ CoolingDown entry frame.2 := by
    simp only [CoolingDown]
    rw [h.lastEvent, h.cooldown]
  simp only [entryStep, evaluateEntry]
  by_cases e : CoolingDown entry frame.2
  · rw [if_pos e, if_pos (hcool.mpr e)]
    exact ⟨rfl, h⟩
  · rw [if_neg e, if_neg fun h' => e (hcool.mp h'), h.evaluator,
      Evaluator.evaluate_withSchedule, h.lastEvent]
    exact ⟨rfl, rfl, rfl, h.cooldown⟩

/-- **The events of an entry do not depend on its schedule.** -/
theorem entryEvents_withSchedule {schedule : RuleSchedule} {entry other : EvaluatorEntry}
    (h : SameButSchedule schedule entry other) (frames : List RuleFrame) :
    entryEvents srt other frames = entryEvents srt entry frames := by
  induction frames generalizing entry other with
  | nil => rfl
  | cons frame frames ih =>
      obtain ⟨hnow, hnext⟩ := h.step srt frame
      rw [entryEvents, entryEvents, hnow, ih hnext]

/-- The events of an entry lie at the times of the frames it is evaluated on. -/
theorem entryEvents_timestamp {T : ℤ → Prop} {entry : EvaluatorEntry} {frames : List RuleFrame}
    (h : EveryStep (entryStep srt)
      (fun entry frame => CoolingDown entry frame.2 ∨ T frame.2.timestampMs) entry frames) :
    ∀ event ∈ entryEvents srt entry frames, T event.timestamp := by
  induction frames generalizing entry with
  | nil => exact fun _ hev => absurd hev List.not_mem_nil
  | cons frame frames ih =>
      intro event hev
      rcases List.mem_append.mp hev with hnow | hlater
      · rcases h.1 with hcool | htime
        · -- during a cooldown there are no events
          rw [evaluateEntry, if_pos hcool] at hnow
          exact absurd hnow List.not_mem_nil
        · rw [(evaluateEntry_events srt frame.1 frame.2 entry event hnow).2.2]
          exact htime
      · exact ih h.2 event hlater

/-! ### Rules of the store -/

/-- A stored rule fires only inside its schedule, and where it is always active its events are
those of the rule with any other always active schedule, in whatever store that stands. -/
def ScheduleRespected (srt : PairSorter) (localTime : ℤ → LocalTime) (engine : RuleEngine)
    (channelId : ℤ) (rule : AnalysisRule) (frames : List RuleFrame) : Prop :=
  (rule.schedule.alwaysActive = false →
    ∀ event ∈ ruleEvents srt channelId engine.loadRules frames rule.id,
      InSchedule rule.schedule (localTime event.timestamp)) ∧
  (rule.schedule.alwaysActive = true → ∀ (other : RuleEngine) (schedule : RuleSchedule),
    schedule.alwaysActive = true →
    rule.withSchedule schedule ∈ other.store.listEnabledRulesByChannel channelId →
    ruleEvents srt channelId other.loadRules frames rule.id =
      ruleEvents srt channelId engine.loadRules frames rule.id)

/-- A frame on which the rule is evaluated lies in its schedule. -/
def FrameInSchedule (localTime : ℤ → LocalTime) (channelId : ℤ) (rule : AnalysisRule)
    (engine : RuleEngine) (frame : RuleFrame) : Prop :=
  ∀ entry ∈ entryOf engine channelId rule.id,
    CoolingDown entry frame.2 ∨ InSchedule rule.schedule (localTime frame.2.timestampMs)

/-- **A rule fires inside its schedule** when every frame that finds it out of its cooldown lies
in the schedule. -/
theorem scheduleRespected_of_frames (localTime : ℤ → LocalTime) (engine : RuleEngine)
    {rule : AnalysisRule} (hrule : rule ∈ engine.store.listEnabledRulesByChannel channelId)
    {frames : List RuleFrame}
    (h : EveryStep (frameStep srt channelId) (FrameInSchedule localTime channelId rule)
      engine.loadRules frames) :
    ScheduleRespected srt localTime engine channelId rule frames := by
  constructor
  · intro _ event hev
    rw [ruleEvents_loadRules engine hrule] at hev
    exact entryEvents_timestamp (T := fun ms => InSchedule rule.schedule (localTime ms))
      (everyStep_entry (entryOf_loadRules engine hrule) h) event hev
  · intro _ other schedule _ hother
    rw [ruleEvents_loadRules engine hrule]
    exact (ruleEvents_loadRules other hother frames).trans
      (entryEvents_withSchedule (sameButSchedule_makeEntry schedule rule) frames)

/-! ### An alarm at noon -/

/-- A rule for channel 0 that guards the whole picture from 22:00 to 06:00. -/
def nightRule : AnalysisRule where
  type := .regionIntrusion
  channelId := 0
  region := { vertices := [{ x := 0, y := 0 }, { x := 1, y := 0 }, { x := 1, y := 1 },
    { x := 0, y := 1 }] }
  schedule := { alwaysActive := false, startTime := "22:00", endTime := "06:00" }

/-- An engine with the rule stored. -/
def nightEngine : RuleEngine := { store := (RuleStore.createRule {} nightRule 0).1 }

/-- The rule as it is stored. -/
def storedNightRule : AnalysisRule := decodeRule (1, encodeRule nightRule 0)

theorem storedNightRule_mem : storedNightRule ∈ nightEngine.store.listEnabledRulesByChannel 0 :=
  List.mem_singleton_self _

/-- Local time at the meridian of the epoch, which was a Thursday. -/
def utc (ms : ℤ) : LocalTime where
  weekday := (ms / 86400000 + 4) % 7
  minute := (ms / 60000 % 1440).toNat

/-- A frame of 100 by 100 pixels with one person in it, this many minutes after the epoch. -/
def personAt (minutes : ℤ) : RuleFrame :=
  ([{ x1 := 40, y1 := 40, x2 := 60, y2 := 60, confidence := 9 / 10, classId := 0,
      className := "person" }],
    { channelId := 0, timestampMs := minutes * 60000, frameWidth := 100, frameHeight := 100 })

/-- A person at 23:00. -/
theorem scheduleRespected_at_night :
    ScheduleRespected byIou utc nightEngine 0 storedNightRule [personAt 1380] :=
  scheduleRespected_of_frames utc nightEngine storedNightRule_mem
    ⟨fun _ _ => .inr (by decide +kernel), trivial⟩

/-- A person at noon sets the rule off. -/
theorem not_scheduleRespected :
    ¬ ScheduleRespected byIou utc nightEngine 0 storedNightRule [personAt 720] := by
  intro h
  have hevents := h.1 (by decide +kernel)
  revert hevents
  decide +kernel

end LoongNvr.Rules.RuleEngine
