import LoongNvr.Rules.TrackVisits
import Mathlib.Data.List.Chain

/-!
# Rules — SideChanges

Which side of a line a track was seen on, and what becomes of the changes of side.  The evaluators
of lines visit a track only when it has two points, so they do not see the side it first was on.

* `changes`: the changes of side among sightings of a track.
* `followed_unborn`: what is emitted for a track from its first detection on: the changes among all
  its sightings but the first.
* `isChain_changes`: the directions of changes alternate.
-/

namespace LoongNvr.Rules
open LoongNvr.Core Support IouTracker

/-- What an event says of a crossing. -/
structure Notice where
  timestamp : ℤ
  direction : String
  triggerDetection : Detection
  deriving DecidableEq, Repr

def noticeOf (event : RuleEvent) : Notice :=
  { timestamp := event.timestamp, direction := event.direction,
    triggerDetection := event.triggerDetection }

/-- The side of a rule's line a point lies on: 1, -1, or 0 on the line. -/
def sideOf (rule : AnalysisRule) (width height : ℤ) (point : Point2D) : ℤ :=
  let cp := crossProduct rule.line.start rule.line.stop (normalizePoint point width height)
  if cp > 0 then 1 else if cp < 0 then -1 else 0

/-- A detection that a track was matched with or created for. -/
structure Sighting where
  timestamp : ℤ
  side : ℤ
  detection : Detection
  deriving DecidableEq, Repr

/-- The sighting a frame shows, if it shows one. -/
def sighting (rule : AnalysisRule) (view : View) : Option Sighting :=
  (view.2.filter seenNow).map fun track =>
    { timestamp := view.1.timestampMs
      side := sideOf rule view.1.frameWidth view.1.frameHeight
        (detectionCenter track.lastDetection)
      detection := track.lastDetection }

def sightings (rule : AnalysisRule) (shown : List View) : List Sighting :=
  shown.filterMap (sighting rule)

/-- Those that are not on the line. -/
def offLine (seen : List Sighting) : List Sighting := seen.filter fun s => s.side ≠ 0

theorem offLine_cons (s : Sighting) (seen : List Sighting) :
    offLine (s :: seen) = if s.side = 0 then offLine seen else s :: offLine seen := by
  by_cases hside : s.side = 0
  · simp [offLine, hside]
  · simp [offLine, hside]

/-- A notice for each two that follow one another on different sides, with the direction given by
the first. -/
def changes (seen : List Sighting) : List Notice :=
  (seen.zip seen.tail).filterMap fun (before, after) =>
    if before.side = after.side then none
    else some
      { timestamp := after.timestamp
        direction := if before.side > 0 then "A_to_B" else "B_to_A"
        triggerDetection := after.detection }

/-! ### Changes, one by one -/

/-- The notice of a sighting after one on another side. -/
def change (last : ℤ) (s : Sighting) : List Notice :=
  if last = s.side then []
  else [{ timestamp := s.timestamp, direction := if last > 0 then "A_to_B" else "B_to_A",
          triggerDetection := s.detection }]

/-- The changes after a side. -/
def changesFrom : Option ℤ → List Sighting → List Notice
  | _, [] => []
  | none, s :: seen => changesFrom (some s.side) seen
  | some last, s :: seen => change last s ++ changesFrom (some s.side) seen

theorem changesFrom_some (first : Sighting) (seen : List Sighting) :
    changesFrom (some first.side) seen = changes (first :: seen) := by
  induction seen generalizing first with
  | nil => rfl
  | cons s seen ih =>
      rw [changesFrom, ih s]
      simp only [changes, change, List.tail_cons, List.zip_cons_cons, List.filterMap_cons]
      split <;> simp_all

theorem changesFrom_none (seen : List Sighting) : changesFrom none seen = changes seen := by
  cases seen with
  | nil => rfl
  | cons s seen => exact changesFrom_some s seen

/-- One of the two sides. -/
def IsSide (side : ℤ) : Prop := side = 1 ∨ side = -1

theorem sideOf_cases (rule : AnalysisRule) (width height : ℤ) (point : Point2D) :
    sideOf rule width height point = 0 ∨ IsSide (sideOf rule width height point) := by
  unfold sideOf
  dsimp only
  split
  · exact .inr (.inl rfl)
  · split
    · exact .inr (.inr rfl)
    · exact .inl rfl

theorem isSide_of_mem_offLine {rule : AnalysisRule} {shown : List View} {seen : List Sighting}
    (hseen : seen ⊆ sightings rule shown) : ∀ s ∈ offLine seen, IsSide s.side := by
  intro s hs
  obtain ⟨hmem, hside⟩ := List.mem_filter.mp hs
  obtain ⟨view, -, hview⟩ := List.mem_filterMap.mp (hseen hmem)
  obtain ⟨track, -, rfl⟩ := Option.map_eq_some_iff.mp hview
  exact (sideOf_cases rule _ _ _).resolve_left (by simpa using hside)

/-- The direction of a change from a side. -/
def directionFrom (side : ℤ) : String := if side > 0 then "A_to_B" else "B_to_A"

theorem directionFrom_ne {a b : ℤ} (ha : IsSide a) (hb : IsSide b) (h : a ≠ b) :
    directionFrom a ≠ directionFrom b := by
  rcases ha with rfl | rfl <;> rcases hb with rfl | rfl
  · exact absurd rfl h
  · decide
  · decide
  · exact absurd rfl h

/-- From a side the directions alternate, beginning with that side's. -/
theorem isChain_changesFrom {seen : List Sighting} (hseen : ∀ s ∈ seen, IsSide s.side) {last : ℤ}
    (hlast : IsSide last) :
    ((changesFrom (some last) seen).map (·.direction)).IsChain (· ≠ ·) ∧
      ∀ direction ∈ ((changesFrom (some last) seen).map (·.direction)).head?,
        direction = directionFrom last := by
  induction seen generalizing last with
  | nil => exact ⟨List.isChain_nil, fun _ h => by cases h⟩
  | cons s seen ih =>
      obtain ⟨hs, hrest⟩ := List.forall_mem_cons.mp hseen
      obtain ⟨hchain, hhead⟩ := ih hrest hs
      rw [changesFrom, change]
      split
      · next hsame =>
          rw [List.nil_append, hsame]
          exact ⟨hchain, hhead⟩
      · next hother =>
          rw [List.singleton_append, List.map_cons]
          refine ⟨List.isChain_cons.mpr ⟨fun direction hdirection => ?_, hchain⟩,
            fun direction hdirection => ?_⟩
          · rw [hhead direction hdirection]
            exact directionFrom_ne hlast hs hother
          · exact (Option.some.inj hdirection).symm

/-- **The directions of changes alternate.** -/
theorem isChain_changes {seen : List Sighting} (hseen : ∀ s ∈ seen, IsSide s.side) :
    ((changes seen).map (·.direction)).IsChain (· ≠ ·) := by
  cases seen with
  | nil => exact List.isChain_nil
  | cons s seen =>
      obtain ⟨hs, hrest⟩ := List.forall_mem_cons.mp hseen
      rw [← changesFrom_some]
      exact (isChain_changesFrom hrest hs).1

/-! ### Visits to a track -/

/-- The notice of a crossing. -/
def noticed (context : FrameContext) (track : TrackedObject) (direction : String) : List Notice :=
  [{ timestamp := context.timestampMs, direction := direction,
     triggerDetection := track.lastDetection }]

/-- The visit of the evaluators of lines, with notices for events. -/
def noticeVisit (rule : AnalysisRule) (context : FrameContext) :
    Visit TrackedObject ℤ Notice := lineVisit rule (noticed context) context

/-- The frames are of one size. -/
def OfSize (width height : ℤ) (context : FrameContext) : Prop :=
  context.frameWidth = width ∧ context.frameHeight = height

section Visits

variable {rule : AnalysisRule} {width height : ℤ} {context : FrameContext}
  {track : TrackedObject} {config : Config}

theorem currentSide_eq (hsize : OfSize width height context) (h : WellTracked config track) :
    currentSide rule track context =
      sideOf rule width height (detectionCenter track.lastDetection) := by
  obtain ⟨rfl, rfl⟩ := hsize
  rw [currentSide, currentCenter, h.trajectory_last]
  rfl

/-- A track that is visited: it is active and has two points. -/
def Visitable (track : TrackedObject) : Prop := track.active = true ∧ 2 ≤ track.trajectory.length

/-- What is kept of a track that is visited and not on the line is the side it is on. -/
def Settled (rule : AnalysisRule) (width height : ℤ) (track : TrackedObject)
    (last : Option ℤ) : Prop :=
  Visitable track → sideOf rule width height (detectionCenter track.lastDetection) ≠ 0 →
    last = some (sideOf rule width height (detectionCenter track.lastDetection))

theorem lineVisit_of_not {ε : Type} {emit : TrackedObject → String → List ε} {last : Option ℤ}
    (h : ¬ Visitable track) : lineVisit rule emit context last track = (last, []) := by
  rw [lineVisit, if_pos]
  by_contra hneg
  simp only [Bool.or_eq_true, Bool.not_eq_true', decide_eq_true_eq, not_or,
    Bool.not_eq_false, not_lt] at hneg
  exact h hneg

/-- The visit to a track that is on the line. -/
theorem lineVisit_of_zero {ε : Type} {emit : TrackedObject → String → List ε} {last : Option ℤ}
    (h : currentSide rule track context = 0) :
    lineVisit rule emit context last track = (last, []) := by
  rw [lineVisit]
  split
  · rfl
  · exact if_pos h

/-- The visit to a track that is on a side. -/
theorem lineVisit_of_side {ε : Type} {emit : TrackedObject → String → List ε} {last : Option ℤ}
    (hvisit : Visitable track) (h : currentSide rule track context ≠ 0) :
    lineVisit rule emit context last track =
      (some (currentSide rule track context), match last with
        | none => []
        | some prev =>
            if prev ≠ 0 ∧ prev ≠ currentSide rule track context then
              emit track (crossingDirection prev (currentSide rule track context)) else []) := by
  rw [lineVisit, if_neg]
  · exact if_neg h
  · simp only [Bool.or_eq_true, Bool.not_eq_true', decide_eq_true_eq, not_or,
      Bool.not_eq_false, not_lt]
    exact hvisit

/-- **A track that stays where it was** is not noticed again. -/
theorem lineVisit_of_settled {ε : Type} {emit : TrackedObject → String → List ε}
    {last : Option ℤ} (hsize : OfSize width height context) (h : WellTracked config track)
    (hsettled : Settled rule width height track last) :
    lineVisit rule emit context last track = (last, []) := by
  by_cases hvisit : Visitable track
  · by_cases hside : currentSide rule track context = 0
    · exact lineVisit_of_zero hside
    · have hlast := hsettled hvisit (currentSide_eq hsize h ▸ hside)
      rw [← currentSide_eq hsize h] at hlast
      rw [lineVisit_of_side hvisit hside, hlast]
      simp
  · exact lineVisit_of_not hvisit

/-- What a visit leaves is settled. -/
theorem settled_lineVisit {ε : Type} {emit : TrackedObject → String → List ε} {last : Option ℤ}
    (hsize : OfSize width height context) (h : WellTracked config track) :
    Settled rule width height track (lineVisit rule emit context last track).1 := by
  intro hvisit hside
  rw [← currentSide_eq hsize h] at hside ⊢
  rw [lineVisit_of_side hvisit hside]

/-- The visit to a track just seen: the change of side, if there is one. -/
theorem noticeVisit_of_side {last : Option ℤ} (hlast : ∀ side ∈ last, IsSide side)
    (hvisit : Visitable track) (hside : currentSide rule track context ≠ 0) {s : Sighting}
    (hs : s = { timestamp := context.timestampMs, side := currentSide rule track context,
                detection := track.lastDetection }) (seen : List Sighting) :
    (noticeVisit rule context last track).2 ++ changesFrom (some s.side) seen =
      changesFrom last (s :: seen) := by
  have hcases : IsSide (currentSide rule track context) :=
    (sideOf_cases rule context.frameWidth context.frameHeight _).resolve_left hside
  rw [noticeVisit, lineVisit_of_side hvisit hside]
  subst hs
  cases last with
  | none => rfl
  | some prev =>
      have hprev := hlast prev rfl
      rw [changesFrom, change]
      refine congrArg (· ++ _) ?_
      dsimp only
      by_cases hsame : prev = currentSide rule track context
      · rw [if_pos hsame, if_neg fun h => h.2 hsame]
      · rcases hprev with rfl | rfl <;> rcases hcases with hc | hc <;> rw [hc] at hsame ⊢
        · exact absurd rfl hsame
        · rfl
        · rfl
        · exact absurd rfl hsame

end Visits

/-! ### Along a life -/

theorem seenNow_ageTrack {config : Config} {track : TrackedObject}
    (h : WellTracked config track) : seenNow (ageTrack config track false) = false :=
  (ageTrack_framesMissing h.counted).2

theorem sighting_of_seen {rule : AnalysisRule} {context : FrameContext} {track : TrackedObject}
    {config : Config} (h : WellTracked config track) (hseen : seenNow track = true) :
    sighting rule (context, some track) =
      some { timestamp := context.timestampMs, side := currentSide rule track context,
             detection := track.lastDetection } := by
  rw [currentSide_eq ⟨rfl, rfl⟩ h, sighting, Option.filter_some_pos hseen]
  rfl

theorem sightings_cons (rule : AnalysisRule) (view : View) (shown : List View) :
    sightings rule (view :: shown) = (sighting rule view).toList ++ sightings rule shown := by
  rw [sightings, List.filterMap_cons]
  cases sighting rule view <;> rfl

/-- After two detections a track has two points. -/
theorem visitable_extendTrack {config : Config} (hconfig : 2 ≤ config.maxTrajectoryPoints)
    {track : TrackedObject} (h : WellTracked config track) (hactive : track.active = true)
    (det : Detection) : Visitable (extendTrack config det track) := by
  refine ⟨hactive, ?_⟩
  have hpos := h.trajectory_pos
  simp only [extendTrack]
  split
  · next hlong =>
      rw [List.length_tail]
      rw [List.length_append, List.length_singleton] at hlong ⊢
      omega
  · rw [List.length_append, List.length_singleton]
    omega

/-- A track that is missed is settled if it was. -/
theorem Settled.ageTrack {rule : AnalysisRule} {width height : ℤ} {config : Config}
    {track : TrackedObject} {last : Option ℤ} (h : Settled rule width height track last) :
    Settled rule width height (ageTrack config track false) last := by
  rintro ⟨hactive, hlength⟩
  rw [ageTrack_trajectory] at hlength
  rw [ageTrack_lastDetection]
  refine h ⟨?_, hlength⟩
  by_contra hidle
  rw [Bool.not_eq_true] at hidle
  simp [IouTracker.ageTrack, hidle] at hactive

section Lives

variable {rule : AnalysisRule} {width height : ℤ} {config : Config} {trackId : ℤ}
  {shown : List View}

/-- Of a track that is gone nothing is emitted or seen. -/
theorem followed_gone {β ε : Type} (visit : FrameContext → Visit TrackedObject β ε)
    (h : Life config trackId .gone shown) (kept : Option β) :
    followed visit kept shown = [] ∧ ∀ view ∈ shown, view.2 = none := by
  generalize hstage : Stage.gone = stage at h
  induction h generalizing kept with
  | nil => exact ⟨rfl, fun _ hview => absurd hview List.not_mem_nil⟩
  | cons context detections hstep hlater ih =>
      subst hstage
      cases hstep with
      | gone =>
          obtain ⟨hemit, hnone⟩ := ih none rfl
          exact ⟨hemit, List.forall_mem_cons.mpr ⟨rfl, hnone⟩⟩

theorem sightings_of_none (h : ∀ view ∈ shown, view.2 = none) : sightings rule shown = [] := by
  refine List.filterMap_eq_nil_iff.mpr fun view hview => ?_
  rw [sighting, h view hview]
  rfl

/-- **A track that is there**: the changes among what is seen of it from now on, after the side
kept. -/
theorem followed_present (hconfig : 2 ≤ config.maxTrajectoryPoints) {track : TrackedObject}
    (h : Life config trackId (.present track) shown) (htrack : WellTracked config track)
    (hsize : ∀ view ∈ shown, OfSize width height view.1) {last : Option ℤ}
    (hlast : ∀ side ∈ last, IsSide side) (hsettled : Settled rule width height track last) :
    followed (noticeVisit rule) last shown =
      changesFrom last (offLine (sightings rule shown)) := by
  generalize hstage : Stage.present track = stage at h
  induction h generalizing track last with
  | nil => cases last <;> rfl
  | @cons _ next shown context detections hstep hlater ih =>
      subst hstage
      obtain ⟨hfirst, hrest⟩ := List.forall_mem_cons.mp hsize
      cases hstep with
      | seen old det hactive hdet =>
          have hnext := htrack.extendTrack det
          have hvisit := visitable_extendTrack hconfig htrack hactive det
          have hseen : seenNow (extendTrack config det track) = true := by
            simp [seenNow, extendTrack, hactive]
          have hkept := @settled_lineVisit rule width height context _ config Notice
            (noticed context) last hfirst hnext
          rw [sightings_cons, Stage.track_present, sighting_of_seen hnext hseen, Option.toList_some,
            List.singleton_append, followed]
          by_cases hside : currentSide rule (extendTrack config det track) context = 0
          · -- on the line: neither visited nor among the sightings that count
            have hnone : noticeVisit rule context last (extendTrack config det track) =
                (last, []) := lineVisit_of_zero hside
            rw [← noticeVisit, hnone] at hkept
            rw [hnone, List.nil_append, offLine_cons, if_pos hside]
            exact ih hnext hrest hlast hkept rfl
          · have hsides : ∀ side ∈ (noticeVisit rule context last
                (extendTrack config det track)).1, IsSide side := by
              rw [noticeVisit, lineVisit_of_side hvisit hside]
              rintro side ⟨⟩
              exact (sideOf_cases rule _ _ _).resolve_left hside
            rw [ih hnext hrest hsides hkept rfl, offLine_cons, if_neg hside]
            have hchange := noticeVisit_of_side hlast hvisit hside rfl
              (offLine (sightings rule shown))
            rw [← hchange, noticeVisit, lineVisit_of_side hvisit hside]
      | missed old =>
          have hnext := htrack.ageTrack
          have hkept := @Settled.ageTrack _ _ _ config _ _ hsettled
          have hnone : noticeVisit rule context last (IouTracker.ageTrack config track false) =
              (last, []) := lineVisit_of_settled hfirst hnext hkept
          have hunseen : sighting rule (context, some (IouTracker.ageTrack config track false)) =
              none := by
            rw [sighting, Option.filter_some_neg (by simp [seenNow_ageTrack htrack])]
            rfl
          rw [sightings_cons, Stage.track_present, hunseen, followed, hnone]
          exact ih hnext hrest hlast hkept rfl
      | removed old =>
          obtain ⟨hemit, hviews⟩ := followed_gone (noticeVisit rule) hlater none
          rw [sightings_cons, Stage.track_gone, sightings_of_none hviews, followed, hemit]
          cases last <;> rfl

/-- **From the first detection on**: the changes among all that is seen of a track but the
first. -/
theorem followed_unborn (hconfig : 2 ≤ config.maxTrajectoryPoints)
    (h : Life config trackId .unborn shown)
    (hsize : ∀ view ∈ shown, OfSize width height view.1) :
    followed (noticeVisit rule) none shown = changes (offLine (sightings rule shown).tail) := by
  generalize hstage : Stage.unborn = stage at h
  induction h with
  | nil => rfl
  | @cons _ next shown context detections hstep hlater ih =>
      subst hstage
      obtain ⟨hfirst, hrest⟩ := List.forall_mem_cons.mp hsize
      cases hstep with
      | unborn => exact ih hrest rfl
      | born det hdet =>
          have hnew := wellTracked_newTrack config trackId det
          have hvisit : ¬ Visitable (newTrack trackId det) :=
            fun h => absurd h.2 (by simp [newTrack])
          have hnone : noticeVisit rule context none (newTrack trackId det) = (none, []) :=
            lineVisit_of_not hvisit
          rw [sightings_cons, Stage.track_present, sighting_of_seen hnew rfl, followed, hnone]
          refine (followed_present hconfig hlater hnew hrest (fun _ hside => by cases hside)
            fun hactive => absurd hactive hvisit).trans ?_
          exact changesFrom_none _

end Lives

end LoongNvr.Rules
