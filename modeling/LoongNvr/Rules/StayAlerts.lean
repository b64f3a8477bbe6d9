import LoongNvr.Rules.SideChanges
import LoongNvr.Support.Emitted

/-!
# Rules — StayAlerts

The stays of tracks in a region.  A `RegionIntrusionEvaluator` keeps a flag for each track and
alerts where a track is inside and was not; a `LoiteringEvaluator` keeps when the track entered and
when it last alerted.

* `stayAlerts`: the alerts of a loitering rule in one stay.
* `emitted_enterStep`, `emitted_loiterStep`: what is emitted in a stay.
* `LooksAt.followed_unborn`: an evaluator that only looks at active tracks, stay by stay.
* `looksAt` of the evaluators: they do.
-/

namespace LoongNvr.Rules
open LoongNvr.Core Support IouTracker
open RuleEngine (RuleFrame)

/-- What an event says of an alert. -/
structure Alert where
  timestamp : ℤ
  triggerDetection : Detection
  deriving DecidableEq, Repr

def alertOf (event : RuleEvent) : Alert :=
  { timestamp := event.timestamp, triggerDetection := event.triggerDetection }

/-- What a frame shows of a track in the region: the track is active and its latest center is
inside. -/
def look (rule : AnalysisRule) (view : View) : Option Alert :=
  match view.2 with
  | none => none
  | some track =>
      if track.active ∧ pointInPolygon (currentCenter track view.1) rule.region.vertices then
        some { timestamp := view.1.timestampMs, triggerDetection := track.lastDetection }
      else none

theorem look_of_inside {rule : AnalysisRule} {context : FrameContext} {track : TrackedObject}
    (hactive : track.active = true)
    (hinside : pointInPolygon (currentCenter track context) rule.region.vertices = true) :
    look rule (context, some track) =
      some { timestamp := context.timestampMs, triggerDetection := track.lastDetection } :=
  if_pos ⟨hactive, hinside⟩

theorem look_of_outside {rule : AnalysisRule} {context : FrameContext} {track : TrackedObject}
    (houtside : ¬ pointInPolygon (currentCenter track context) rule.region.vertices = true) :
    look rule (context, some track) = none :=
  if_neg fun h => houtside h.2

def looks (rule : AnalysisRule) (shown : List View) : List (Option Alert) := shown.map (look rule)

/-! ### The alerts of a stay -/

/-- The alerts after one: each at the first look as long after the one before as the cooldown. -/
def repeats (cooldownMs : ℤ) : ℤ → List Alert → List Alert
  | _, [] => []
  | lastMs, a :: stay =>
      if cooldownMs ≤ a.timestamp - lastMs then a :: repeats cooldownMs a.timestamp stay
      else repeats cooldownMs lastMs stay

/-- The alerts of a stay: the first at the first look as long after the entry as the threshold, and
with a cooldown others after it. -/
def stayAlerts (loiterMs cooldownMs : ℤ) : List Alert → List Alert
  | [] => []
  | entry :: stay =>
      match (entry :: stay).dropWhile fun a => a.timestamp - entry.timestamp < loiterMs with
      | [] => []
      | first :: later =>
          first :: if 0 < cooldownMs then repeats cooldownMs first.timestamp later else []

/-! ### Machines that look -/

/-- The notice of an entry. -/
def Alert.enters (a : Alert) : Notice :=
  { timestamp := a.timestamp, direction := "enter", triggerDetection := a.triggerDetection }

/-- A notice where there was nothing before. -/
def enterStep (was : Bool) : Option Alert → Bool × List Notice
  | none => (false, [])
  | some a => (true, if was then [] else [a.enters])

/-- The time of the entry and of the last alert, as long as the stay lasts. -/
def loiterStep (loiterMs cooldownMs : ℤ) (stay : Option (ℤ × Option ℤ)) :
    Option Alert → Option (ℤ × Option ℤ) × List Alert
  | none => (none, [])
  | some a =>
      let (entryMs, lastMs) := stay.getD (a.timestamp, none)
      if loiterMs ≤ a.timestamp - entryMs ∧
          ∀ ms ∈ lastMs, 0 < cooldownMs ∧ cooldownMs ≤ a.timestamp - ms then
        (some (entryMs, some a.timestamp), [a])
      else (some (entryMs, lastMs), [])

theorem emitted_enterStep_true (stay : List Alert) :
    emitted enterStep true (stay.map some) = [] := by
  induction stay with
  | nil => rfl
  | cons a stay ih => exact ih

theorem emitted_enterStep (stay : List Alert) :
    emitted enterStep false (stay.map some) = (stay.take 1).map Alert.enters := by
  cases stay with
  | nil => rfl
  | cons a stay => exact congrArg (a.enters :: ·) (emitted_enterStep_true stay)

section Loiter

variable {loiterMs cooldownMs entryMs : ℤ}

/-- After an alert, when the threshold has passed. -/
theorem emitted_loiterStep_alerted (lastMs : ℤ) {stay : List Alert}
    (hstay : ∀ a ∈ stay, loiterMs ≤ a.timestamp - entryMs) :
    emitted (loiterStep loiterMs cooldownMs) (some (entryMs, some lastMs)) (stay.map some) =
      if 0 < cooldownMs then repeats cooldownMs lastMs stay else [] := by
  induction stay generalizing lastMs with
  | nil => simp [emitted, repeats]
  | cons a stay ih =>
      obtain ⟨hfirst, hrest⟩ := List.forall_mem_cons.mp hstay
      rw [List.map_cons, emitted, loiterStep]
      by_cases hpos : 0 < cooldownMs
      · by_cases hdue : cooldownMs ≤ a.timestamp - lastMs
        · rw [if_pos hpos, repeats, if_pos hdue]
          simp [hfirst, hpos, hdue, ih _ hrest]
        · rw [if_pos hpos, repeats, if_neg hdue]
          simp [hdue, ih _ hrest, hpos]
      · rw [if_neg hpos]
        simp [hpos, ih _ hrest]

/-- Before the first alert. -/
theorem emitted_loiterStep_waiting {stay : List Alert}
    (hstay : stay.Pairwise fun a b => a.timestamp ≤ b.timestamp) :
    emitted (loiterStep loiterMs cooldownMs) (some (entryMs, none)) (stay.map some) =
      match stay.dropWhile fun a => a.timestamp - entryMs < loiterMs with
      | [] => []
      | first :: later =>
          first :: if 0 < cooldownMs then repeats cooldownMs first.timestamp later else [] := by
  induction stay with
  | nil => rfl
  | cons a stay ih =>
      obtain ⟨hafter, hrest⟩ := List.pairwise_cons.mp hstay
      rw [List.map_cons, emitted, loiterStep]
      by_cases hdue : loiterMs ≤ a.timestamp - entryMs
      · have hlate : ∀ b ∈ stay, loiterMs ≤ b.timestamp - entryMs := fun b hb =>
          hdue.trans (by have := hafter b hb; omega)
        rw [List.dropWhile_cons_of_neg (by simpa using hdue)]
        simp [hdue, emitted_loiterStep_alerted a.timestamp hlate]
      · rw [List.dropWhile_cons_of_pos (by simpa using hdue)]
        simpa [hdue] using ih hrest

/-- **A stay.** -/
theorem emitted_loiterStep {stay : List Alert}
    (hstay : stay.Pairwise fun a b => a.timestamp ≤ b.timestamp) :
    emitted (loiterStep loiterMs cooldownMs) none (stay.map some) =
      stayAlerts loiterMs cooldownMs stay := by
  cases stay with
  | nil => rfl
  | cons entry stay =>
      -- the entry begins the stay before it is looked at
      have hbegin : emitted (loiterStep loiterMs cooldownMs) none ((entry :: stay).map some) =
          emitted (loiterStep loiterMs cooldownMs) (some (entry.timestamp, none))
            ((entry :: stay).map some) := rfl
      rw [hbegin, emitted_loiterStep_waiting hstay]
      rfl

end Loiter

/-! ### Evaluators that look -/

section Looks

variable {config : Config} {trackId : ℤ} {rule : AnalysisRule} {β γ ε σ : Type}
  {visit : FrameContext → Visit TrackedObject β ε} {read : ε → γ}
  {step : σ → Option Alert → σ × List γ} {start : σ} {Rel : Option β → σ → Prop}

/-- An evaluator that passes tracks that are not active by, and whose visits to the others are steps
of a machine that looks. -/
structure LooksAt (rule : AnalysisRule) (visit : FrameContext → Visit TrackedObject β ε)
    (read : ε → γ) (step : σ → Option Alert → σ × List γ) (start : σ)
    (Rel : Option β → σ → Prop) : Prop where
  anew : ∀ s, step s none = (start, [])
  first : Rel none start
  idle : ∀ context kept track, track.active = false → visit context kept track = (kept, [])
  visits : ∀ context kept track s, track.active = true → track.trajectory ≠ [] → Rel kept s →
    (visit context kept track).2.map read = (step s (look rule (context, some track))).2 ∧
      Rel (visit context kept track).1 (step s (look rule (context, some track))).1

/-- Of a track that is not active nothing is emitted any more, and nothing seen. -/
theorem LooksAt.followed_inactive (h : LooksAt rule visit read step start Rel) {stage : Stage}
    {shown : List View} (hlife : Life config trackId stage shown)
    (hstage : ∀ track ∈ stage.track, track.active = false) (hborn : stage ≠ .unborn)
    (kept : Option β) :
    followed visit kept shown = [] ∧ ∀ seen ∈ looks rule shown, seen = none := by
  induction hlife generalizing kept with
  | nil => exact ⟨rfl, fun _ hseen => absurd hseen List.not_mem_nil⟩
  | cons context detections hstep hlater ih =>
      cases hstep with
      | unborn => exact absurd rfl hborn
      | born => exact absurd rfl hborn
      | seen old det hactive => exact absurd (hstage old rfl) (by simp [hactive])
      | missed old =>
          have hold : old.active = false := hstage old rfl
          have hnext : (ageTrack config old false).active = false := by simp [ageTrack, hold]
          obtain ⟨hemit, hnone⟩ := ih (fun track htrack => by
            rw [← Option.some.inj htrack]
            exact hnext) (by simp) kept
          refine ⟨?_, List.forall_mem_cons.mpr ⟨?_, hnone⟩⟩
          · rw [Stage.track_present, followed, h.idle _ _ _ hnext]
            exact hemit
          · simp [look, hnext]
      | removed old =>
          obtain ⟨hemit, hnone⟩ := ih (fun _ htrack => by cases htrack) (by simp) none
          exact ⟨hemit, List.forall_mem_cons.mpr ⟨rfl, hnone⟩⟩
      | gone =>
          obtain ⟨hemit, hnone⟩ := ih (fun _ htrack => by cases htrack) (by simp) none
          exact ⟨hemit, List.forall_mem_cons.mpr ⟨rfl, hnone⟩⟩

/-- The visit to a track that is there now. -/
theorem LooksAt.followed_cons (h : LooksAt rule visit read step start Rel) {track : TrackedObject}
    {shown : List View} (hlater : Life config trackId (.present track) shown)
    (htrack : WellTracked config track)
    (ih : ∀ kept s, track.active = true → Rel kept s →
      (followed visit kept shown).map read = emitted step s (looks rule shown))
    {kept : Option β} {s : σ} (hRel : Rel kept s) (context : FrameContext) :
    (followed visit kept ((context, some track) :: shown)).map read =
      emitted step s (looks rule ((context, some track) :: shown)) := by
  have hpoints : track.trajectory ≠ [] := fun hnil => by
    have hpos := htrack.trajectory_pos
    simp [hnil] at hpos
  by_cases hactive : track.active = true
  · obtain ⟨hout, hnext⟩ := h.visits context kept track s hactive hpoints hRel
    rw [followed, List.map_append, hout, ih _ _ hactive hnext]
    rfl
  · rw [Bool.not_eq_true] at hactive
    obtain ⟨hemit, hnone⟩ := h.followed_inactive hlater (fun other hother => by
      rw [← Option.some.inj hother]
      exact hactive) (by simp) kept
    have hunseen : look rule (context, some track) = none := by simp [look, hactive]
    have hlooks : ∀ seen ∈ looks rule ((context, some track) :: shown), seen = none :=
      List.forall_mem_cons.mpr ⟨hunseen, hnone⟩
    rw [followed, h.idle _ _ _ hactive, hemit, emitted_of_forall_none h.anew hlooks]
    rfl

theorem LooksAt.followed_present (h : LooksAt rule visit read step start Rel)
    {track : TrackedObject} {shown : List View}
    (hlife : Life config trackId (.present track) shown) (htrack : WellTracked config track)
    {kept : Option β} {s : σ} (hRel : Rel kept s) :
    (followed visit kept shown).map read = emitted step s (looks rule shown) := by
  generalize hstage : Stage.present track = stage at hlife
  induction hlife generalizing track kept s with
  | nil => rfl
  | cons context detections hstep hlater ih =>
      subst hstage
      cases hstep with
      | seen old det hactive hdet =>
          have hnext := htrack.extendTrack det
          exact h.followed_cons hlater hnext (fun _ _ _ hRel => ih hnext hRel rfl) hRel context
      | missed old =>
          have hnext := htrack.ageTrack
          exact h.followed_cons hlater hnext (fun _ _ _ hRel => ih hnext hRel rfl) hRel context
      | removed old =>
          obtain ⟨hemit, hnone⟩ := h.followed_inactive hlater (fun _ hother => by cases hother)
            (by simp) none
          have hlooks : ∀ seen ∈ looks rule ((context, Stage.gone.track) :: _), seen = none :=
            List.forall_mem_cons.mpr ⟨rfl, hnone⟩
          rw [emitted_of_forall_none h.anew hlooks, Stage.track_gone, followed, hemit]
          rfl

/-- **What is emitted for a track** is what the machine gives out, stay by stay. -/
theorem LooksAt.followed_unborn (h : LooksAt rule visit read step start Rel) {shown : List View}
    (hlife : Life config trackId .unborn shown) :
    (followed visit none shown).map read =
      (stays (looks rule shown)).flatMap fun stay => emitted step start (stay.map some) := by
  rw [← emitted_eq_flatMap_stays h.anew]
  generalize hstage : Stage.unborn = stage at hlife
  induction hlife with
  | nil => rfl
  | cons context detections hstep hlater ih =>
      subst hstage
      cases hstep with
      | unborn =>
          have hlast := ih rfl
          rw [looks, List.map_cons, emitted]
          show _ = (step start none).2 ++ emitted step (step start none).1 _
          rw [h.anew]
          exact hlast
      | born det hdet =>
          have hnew := wellTracked_newTrack config trackId det
          exact h.followed_cons hlater hnew (fun _ _ _ hRel => h.followed_present hlater hnew hRel)
            h.first context

end Looks

/-! ### The evaluators of regions -/

namespace RegionIntrusionEvaluator

/-- **The evaluator looks**: the flag of a track is whether it was there at the last look. -/
theorem looksAt (rule : AnalysisRule) :
    LooksAt rule (visit rule) noticeOf enterStep false
      fun kept was => was = (kept == some true) where
  anew _ := rfl
  first := rfl
  idle context kept track hidle := by simp [visit, hidle]
  visits context kept track was hactive hpoints hRel := by
    subst hRel
    have hskip : ¬ (!track.active || track.trajectory.isEmpty) = true := by
      simp [hactive, hpoints]
    by_cases hinside : pointInPolygon (currentCenter track context) rule.region.vertices = true
    · rw [look_of_inside hactive hinside, visit, if_neg hskip]
      by_cases hwas : kept = some true
      · simp [hinside, hwas, enterStep]
      · simp [hinside, hwas, enterStep, Alert.enters, noticeOf, makeEvent]
    · rw [look_of_outside hinside, visit, if_neg hskip]
      simp [hinside, enterStep]

end RegionIntrusionEvaluator

namespace LoiteringEvaluator

/-- What is kept of a stay. -/
def Keeps (kept : Option LoiterState) : Option (ℤ × Option ℤ) → Prop
  | none => (kept.getD {}).inside = false
  | some (entryMs, lastMs) => ∃ state, kept = some state ∧ state.inside = true ∧
      state.enterTimestampMs = entryMs ∧
      match lastMs with
      | none => state.alerted = false
      | some ms => state.alerted = true ∧ state.lastAlertMs = ms

theorem leave_inside (state : LoiterState) : (leave state).inside = false := by
  rw [leave]
  split
  · rfl
  · next h => simpa using h

/-- The state of a track inside, which has entered now if it was not there. -/
theorem keeps_enter {kept : Option LoiterState} {stay : Option (ℤ × Option ℤ)}
    (h : Keeps kept stay) (context : FrameContext) :
    Keeps (some (enter context (kept.getD {})))
      (some (stay.getD (context.timestampMs, none))) := by
  cases stay with
  | none =>
      have hout : (kept.getD {}).inside = false := h
      rw [enter, hout]
      exact ⟨_, rfl, rfl, rfl, rfl⟩
  | some stay =>
      obtain ⟨state, rfl, hinside, hrest⟩ := h
      rw [Option.getD_some, enter, if_pos hinside]
      exact ⟨state, rfl, hinside, hrest⟩

/-- An alert is due after the threshold, and after a first one with a cooldown that has passed. -/
theorem shouldAlert_iff {state : LoiterState} {stay : ℤ × Option ℤ}
    (h : Keeps (some state) (some stay)) (rule : AnalysisRule) (context : FrameContext) :
    shouldAlert rule context state = true ↔
      rule.loiterTimeSec * 1000 ≤ context.timestampMs - stay.1 ∧
        ∀ ms ∈ stay.2, 0 < rule.cooldownSec * 1000 ∧
          rule.cooldownSec * 1000 ≤ context.timestampMs - ms := by
  obtain ⟨entryMs, lastMs⟩ := stay
  obtain ⟨state', hstate, -, rfl, hlast⟩ := h
  obtain rfl := Option.some.inj hstate
  cases lastMs with
  | none =>
      have halerted : state.alerted = false := hlast
      simp [shouldAlert, halerted]
  | some ms =>
      obtain ⟨halerted, rfl⟩ := hlast
      simp [shouldAlert, halerted]

/-- **The evaluator looks**, and keeps the time of the entry and of the last alert. -/
theorem looksAt (rule : AnalysisRule) :
    LooksAt rule (visit rule) alertOf
      (loiterStep (rule.loiterTimeSec * 1000) (rule.cooldownSec * 1000)) none Keeps where
  anew _ := rfl
  first := rfl
  idle context kept track hidle := by simp [visit, hidle]
  visits context kept track stay hactive hpoints hRel := by
    have hskip : ¬ (!track.active || track.trajectory.isEmpty) = true := by
      simp [hactive, hpoints]
    by_cases hinside : pointInPolygon (currentCenter track context) rule.region.vertices = true
    · rw [look_of_inside hactive hinside, visit, if_neg hskip]
      have hkeeps := keeps_enter hRel context
      have hdue := shouldAlert_iff hkeeps rule context
      obtain ⟨state, hstate, hin, hentry, hlast⟩ := hkeeps
      obtain rfl := Option.some.inj hstate
      dsimp only
      rw [if_pos hinside, loiterStep]
      dsimp only
      by_cases halert : shouldAlert rule context (enter context (kept.getD {})) = true
      · rw [if_pos halert, if_pos (hdue.mp halert)]
        exact ⟨rfl, _, rfl, hin, hentry, rfl, rfl⟩
      · rw [if_neg halert, if_neg fun h => halert (hdue.mpr h)]
        exact ⟨rfl, _, rfl, hin, hentry, hlast⟩
    · rw [look_of_outside hinside, visit, if_neg hskip]
      dsimp only
      rw [if_neg hinside]
      exact ⟨rfl, leave_inside _⟩

end LoiteringEvaluator

end LoongNvr.Rules
