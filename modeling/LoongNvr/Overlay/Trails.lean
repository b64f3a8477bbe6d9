import LoongNvr.Channel.ParamsSurvive
import LoongNvr.Channel.SharedFrames
import LoongNvr.Support.Trimmed

/-!
# Overlay — Trails

The trails of `OsdRenderer`: for each class the centres of its detections, trimmed to the number of
points that the overlay's configuration sets, which the HTTP interface takes as it comes.

* `mergeOverlay`: what `HandleUpdateOverlayConfig` makes of a body.
* `updateTrajectoryHistory`: the trails after a frame; `none` once an empty deque is popped.
* `OsdRenderer.run`: a renderer through any calls of `Render` and `ResetTrajectories`.
* `trailsKept_iff`: each trail is the last centres of its class throughout a run exactly when the
  bound is not negative as soon as there is a centre, and no class has more centres than an `int`
  counts where the bound is the greatest `int`.
-/

namespace LoongNvr.Overlay
open LoongNvr.Core LoongNvr.Channel Support
open LoongNvr.AiEngine (truncate)

/-! ### The configuration -/

/-- The fields of a body, each with the present value where the body has none. -/
def mergeFields (ov : OverlayConfig) (j : Json) : Assignments OverlayConfig Unit := do
  assign (j.value Json.getBool "enabled" ov.enabled) fun b o => { o with enabled := b }
  assign (j.value Json.getInt32 "line_thickness" ov.lineThickness)
    fun n o => { o with lineThickness := n }
  assign (j.value Json.getRat "font_scale" ov.fontScale) fun x o => { o with fontScale := x }
  assign (j.value Json.getBool "show_labels" ov.showLabels) fun b o => { o with showLabels := b }
  assign (j.value Json.getBool "show_confidence" ov.showConfidence)
    fun b o => { o with showConfidence := b }
  assign (j.value Json.getBool "show_timestamp" ov.showTimestamp)
    fun b o => { o with showTimestamp := b }
  assign (j.value Json.getBool "show_channel_name" ov.showChannelName)
    fun b o => { o with showChannelName := b }
  assign (j.value Json.getBool "show_trajectory" ov.showTrajectory)
    fun b o => { o with showTrajectory := b }
  assign (j.value Json.getInt32 "trajectory_max_points" ov.trajectoryMaxPoints)
    fun n o => { o with trajectoryMaxPoints := n }
  assign (j.value Json.getInt32 "timestamp_position" ov.timestampPosition)
    fun n o => { o with timestampPosition := n }
  assign (j.value Json.getRat "fill_opacity" ov.fillOpacity) fun x o => { o with fillOpacity := x }
  assign (j.value Json.getStr "timestamp_format" ov.timestampFormat)
    fun t o => { o with timestampFormat := t }

/-- The configuration `HandleUpdateOverlayConfig` passes on, unless a field has the wrong kind. -/
def mergeOverlay (ov : OverlayConfig) (j : Json) : Option OverlayConfig :=
  match (mergeFields ov j).run.run ov with
  | (some (), merged) => some merged
  | (none, _) => none

/-- Any `int` is accepted as the number of points. -/
theorem mergeOverlay_maxPoints (ov : OverlayConfig) {n : ℤ} (hn : IsInt n) :
    mergeOverlay ov (.obj [("show_trajectory", .bool true), ("trajectory_max_points", .num n)]) =
      some { ov with showTrajectory := true, trajectoryMaxPoints := n } := by
  have hpoints : Json.getInt32 (.num n) = some n := by
    rw [Json.getInt32_intCast, (bmod_int32_eq_self_iff n).mpr hn]
  have hvalue :
      (Json.obj [("show_trajectory", .bool true), ("trajectory_max_points", .num n)]).value
        Json.getInt32 "trajectory_max_points" ov.trajectoryMaxPoints = some n := hpoints
  simp only [mergeOverlay, mergeFields, hvalue]
  rfl

/-! ### The trails -/

structure TrajectoryPoint where
  x : ℤ
  y : ℤ
  deriving DecidableEq, Repr

/-- `trajectories_` -/
abbrev Trajectories := AList fun _ : ℤ => List TrajectoryPoint

/-- `trajectories_[classId]` -/
def trail (t : Trajectories) (classId : ℤ) : List TrajectoryPoint := (t.lookup classId).getD []

/-- The centre of a detection, cut to whole pixels. -/
def centre (det : Detection) : TrajectoryPoint where
  x := truncate ((det.x1 + det.x2) / 2)
  y := truncate ((det.y1 + det.y2) / 2)

/-- `static_cast<int>(trail.size()) > config_.trajectory_max_points` -/
def TooLong (config : OverlayConfig) (size : ℕ) : Prop :=
  toInt32 size > config.trajectoryMaxPoints

instance (config : OverlayConfig) : DecidablePred (TooLong config) :=
  fun _ => inferInstanceAs (Decidable (_ < _))

/-- The loop of `OsdRenderer::UpdateTrajectoryHistory` for one detection. -/
def extendTrail (config : OverlayConfig) (t : Trajectories) (det : Detection) :
    Option Trajectories :=
  (popWhile (TooLong config) (trail t det.classId ++ [centre det])).map (t.insert det.classId ·)

/-- `OsdRenderer::UpdateTrajectoryHistory`; `none` when it pops an empty deque. -/
def updateTrajectoryHistory (config : OverlayConfig) (detections : List Detection)
    (t : Trajectories) : Option Trajectories :=
  detections.foldlM (extendTrail config) t

/-- The drawing functions with these trails. -/
def withTrails (osd : OsdDrawing (Option Trajectories)) : OsdDrawing (Option Trajectories) :=
  { osd with
    updateTrajectoryHistory := fun config detections t =>
      t.bind (updateTrajectoryHistory config detections) }

/-! ### Runs of a renderer -/

/-- A call of a renderer whose frame has its pixels. -/
inductive OsdCall
  | render (now : ℤ) (info : FrameInfo) (detections : List Detection) (rules : RuleOverlayData)
      (image : Image)
  | resetTrajectories

/-- A renderer after `Configure` and `SetChannelInfo`. -/
def initialRenderer (p : OverlayParams) : OsdRenderer (Option Trajectories) where
  config := p.config
  channelName := p.channelName
  channelId := p.channelId
  trajectories := some ∅

/-- The renderer after a call. -/
def afterCall (osd : OsdDrawing (Option Trajectories)) (r : OsdRenderer (Option Trajectories)) :
    OsdCall → OsdRenderer (Option Trajectories)
  | .render now info detections rules image =>
      (r.render (withTrails osd) now info detections rules image).1
  | .resetTrajectories => { r with trajectories := r.trajectories.map fun _ => ∅ }

/-- The renderer after some calls. -/
def afterCalls (osd : OsdDrawing (Option Trajectories)) (p : OverlayParams)
    (calls : List OsdCall) : OsdRenderer (Option Trajectories) :=
  calls.foldl (afterCall osd) (initialRenderer p)

/-- Whether a frame is drawn with trails. -/
def Tracks (config : OverlayConfig) (info : FrameInfo) : Prop :=
  0 < info.width ∧ 0 < info.height ∧ config.enabled ∧ config.showTrajectory

instance (config : OverlayConfig) (info : FrameInfo) : Decidable (Tracks config info) :=
  inferInstanceAs (Decidable (_ ∧ _ ∧ _ ∧ _))

/-- The detections rendered with `show_trajectory` since the last reset, after a call. -/
def seenAfter (config : OverlayConfig) (seen : List Detection) : OsdCall → List Detection
  | .render _ info detections _ _ => if Tracks config info then seen ++ detections else seen
  | .resetTrajectories => []

/-- The detections rendered with `show_trajectory` since the last reset, in order. -/
def sinceReset (config : OverlayConfig) (calls : List OsdCall) : List Detection :=
  calls.foldl (seenAfter config) []

/-- The centres of the detections of a class. -/
def centresOf (classId : ℤ) (detections : List Detection) : List TrajectoryPoint :=
  (detections.filter (·.classId = classId)).map centre

/-- The number of points a trail may have. -/
def bound (config : OverlayConfig) : ℕ := (max 0 config.trajectoryMaxPoints).toNat

/-- Each trail is the last centres of its class. -/
def Keeps (config : OverlayConfig) (seen : List Detection) (t : Trajectories) : Prop :=
  ∀ classId, trail t classId = (centresOf classId seen).rtake (bound config)

/-- No empty deque has been popped, and each trail is the last centres of its class. -/
def TrailsKept (osd : OsdDrawing (Option Trajectories)) (p : OverlayParams)
    (calls : List OsdCall) : Prop :=
  ∃ t, (afterCalls osd p calls).trajectories = some t ∧ Keeps p.config (sinceReset p.config calls) t

/-- Where `n` centres of a class can be trimmed: the bound is not negative, and if there are more of
them than an `int` counts, it is not the greatest `int`. -/
def Trimmable (maxPoints : ℤ) (n : ℕ) : Prop :=
  n = 0 ∨ 0 ≤ maxPoints ∧ (maxPoints < 2147483647 ∨ n ≤ 2147483647)

/-! ### One detection -/

section Trails
variable {config : OverlayConfig} {t t' : Trajectories} {seen detections : List Detection}
  {det : Detection}

theorem trail_empty (classId : ℤ) : trail ∅ classId = [] := by
  rw [trail, AList.lookup_empty]
  rfl

theorem trail_insert_self (classId : ℤ) (points : List TrajectoryPoint) :
    trail (t.insert classId points) classId = points := by
  rw [trail, AList.lookup_insert]
  rfl

theorem trail_insert_ne {c classId : ℤ} (h : c ≠ classId) (points : List TrajectoryPoint) :
    trail (t.insert classId points) c = trail t c := by
  rw [trail, trail, AList.lookup_insert_ne h]

theorem centresOf_append (classId : ℤ) (first second : List Detection) :
    centresOf classId (first ++ second) = centresOf classId first ++ centresOf classId second := by
  rw [centresOf, List.filter_append, List.map_append]
  rfl

theorem centresOf_concat_self (det : Detection) (seen : List Detection) :
    centresOf det.classId (seen ++ [det]) = centresOf det.classId seen ++ [centre det] := by
  have hlast : centresOf det.classId [det] = [centre det] := by simp [centresOf]
  rw [centresOf_append, hlast]

theorem centresOf_concat_ne {classId : ℤ} (h : classId ≠ det.classId) (seen : List Detection) :
    centresOf classId (seen ++ [det]) = centresOf classId seen := by
  have hnone : centresOf classId [det] = [] := by simp [centresOf, Ne.symm h]
  rw [centresOf_append, hnone, List.append_nil]

theorem Trimmable.mono {maxPoints : ℤ} {n k : ℕ} (h : Trimmable maxPoints n) (hk : k ≤ n) :
    Trimmable maxPoints k := by
  rcases h with rfl | ⟨hnonneg, hlarge | hsmall⟩
  · exact .inl (Nat.le_zero.mp hk)
  · exact .inr ⟨hnonneg, .inl hlarge⟩
  · exact .inr ⟨hnonneg, .inr (hk.trans hsmall)⟩

theorem keeps_empty (config : OverlayConfig) : Keeps config [] ∅ := by
  intro classId
  rw [trail_empty]
  exact (List.rtake_nil _).symm

/-- Where one more centre can be trimmed, the `int` in the loop's test is the number of points. -/
theorem boundUpTo_of_trimmable (hint : IsInt config.trajectoryMaxPoints) {n : ℕ}
    (h : Trimmable config.trajectoryMaxPoints (n + 1)) :
    BoundUpTo (TooLong config) (min (bound config) n + 1) (bound config) := by
  obtain ⟨hnonneg, hroom⟩ := h.resolve_left n.succ_ne_zero
  intro k hk
  unfold bound at hk
  have hcount : toInt32 k = k := toInt32_of_isInt (by unfold IsInt at hint ⊢; omega)
  rw [TooLong, hcount, bound]
  omega

/-- A detection lengthens the trail of its class. -/
theorem extendTrail_keeps (hint : IsInt config.trajectoryMaxPoints) (h : Keeps config seen t)
    (hroom : Trimmable config.trajectoryMaxPoints
      (centresOf det.classId (seen ++ [det])).length) :
    ∃ t', extendTrail config t det = some t' ∧ Keeps config (seen ++ [det]) t' := by
  rw [centresOf_concat_self, List.length_append, List.length_singleton] at hroom
  have hpop : popWhile (TooLong config) (trail t det.classId ++ [centre det]) =
      some ((centresOf det.classId (seen ++ [det])).rtake (bound config)) := by
    rw [h det.classId, popWhile_concat (boundUpTo_of_trimmable hint hroom), centresOf_concat_self]
  refine ⟨_, by rw [extendTrail, hpop, Option.map_some], fun classId => ?_⟩
  rcases eq_or_ne classId det.classId with rfl | hne
  · exact trail_insert_self _ _
  · rw [trail_insert_ne hne, h classId, centresOf_concat_ne hne]

/-- The detections of a frame, one after the other. -/
theorem updateTrajectoryHistory_keeps (hint : IsInt config.trajectoryMaxPoints)
    (h : Keeps config seen t)
    (hroom : ∀ classId, Trimmable config.trajectoryMaxPoints
      (centresOf classId (seen ++ detections)).length) :
    ∃ t', updateTrajectoryHistory config detections t = some t' ∧
      Keeps config (seen ++ detections) t' := by
  induction detections generalizing seen t with
  | nil => exact ⟨t, rfl, by rwa [List.append_nil]⟩
  | cons det detections ih =>
      have hsplit : seen ++ det :: detections = seen ++ [det] ++ detections := by
        rw [List.append_assoc, List.singleton_append]
      rw [hsplit] at hroom ⊢
      have hfirst : (centresOf det.classId (seen ++ [det])).length ≤
          (centresOf det.classId (seen ++ [det] ++ detections)).length := by
        rw [centresOf_append _ (seen ++ [det]), List.length_append]
        exact Nat.le_add_right _ _
      obtain ⟨t₁, hextend, hkeeps⟩ := extendTrail_keeps hint h ((hroom _).mono hfirst)
      obtain ⟨t₂, hrest, hkeeps⟩ := ih hkeeps hroom
      refine ⟨t₂, ?_, hkeeps⟩
      rw [updateTrajectoryHistory, List.foldlM_cons, hextend]
      exact hrest

/-- A negative bound: the first centre is popped, and then an empty deque. -/
theorem extendTrail_of_neg (hneg : config.trajectoryMaxPoints < 0)
    (hempty : trail t det.classId = []) : extendTrail config t det = none := by
  have hlong : ∀ k ≤ [centre det].length, TooLong config k := by
    intro k hk
    rw [List.length_singleton] at hk
    have hcount : toInt32 k = k := toInt32_of_isInt (by unfold IsInt; omega)
    rw [TooLong, hcount]
    omega
  rw [extendTrail, hempty, List.nil_append, popWhile_eq_none hlong, Option.map_none]

/-- The greatest `int` as bound: no centre is ever dropped. -/
theorem updateTrajectoryHistory_of_greatest (hmax : config.trajectoryMaxPoints = 2147483647)
    (h : ∀ classId, trail t classId = centresOf classId seen) :
    ∃ t', updateTrajectoryHistory config detections t = some t' ∧
      ∀ classId, trail t' classId = centresOf classId (seen ++ detections) := by
  induction detections generalizing seen t with
  | nil => exact ⟨t, rfl, by rwa [List.append_nil]⟩
  | cons det detections ih =>
      have hfits : ¬ TooLong config (trail t det.classId ++ [centre det]).length := by
        have hle := (bmod_int32_bounds (trail t det.classId ++ [centre det]).length).2
        rw [TooLong, hmax, toInt32]
        omega
      have hextend : extendTrail config t det =
          some (t.insert det.classId (centresOf det.classId (seen ++ [det]))) := by
        rw [extendTrail, popWhile_of_fits hfits, Option.map_some, h, centresOf_concat_self]
      have hkept : ∀ classId,
          trail (t.insert det.classId (centresOf det.classId (seen ++ [det]))) classId =
            centresOf classId (seen ++ [det]) := by
        intro classId
        rcases eq_or_ne classId det.classId with rfl | hne
        · exact trail_insert_self _ _
        · rw [trail_insert_ne hne, h classId, centresOf_concat_ne hne]
      obtain ⟨t', hrest, hkept⟩ := ih hkept
      refine ⟨t', ?_, fun classId => ?_⟩
      · rw [updateTrajectoryHistory, List.foldlM_cons, hextend]
        exact hrest
      · rw [hkept, List.append_assoc, List.singleton_append]

end Trails

/-! ### Whole runs -/

section Runs
variable (osd : OsdDrawing (Option Trajectories)) {p : OverlayParams}
  {r : OsdRenderer (Option Trajectories)} {calls : List OsdCall} {call : OsdCall}

theorem afterCalls_concat (p : OverlayParams) (calls : List OsdCall) (call : OsdCall) :
    afterCalls osd p (calls ++ [call]) = afterCall osd (afterCalls osd p calls) call := by
  rw [afterCalls, List.foldl_append]
  rfl

theorem sinceReset_concat (config : OverlayConfig) (calls : List OsdCall) (call : OsdCall) :
    sinceReset config (calls ++ [call]) = seenAfter config (sinceReset config calls) call := by
  rw [sinceReset, List.foldl_append]
  rfl

theorem bind_updateTrajectoryHistory_nil (config : OverlayConfig) (t : Option Trajectories) :
    t.bind (updateTrajectoryHistory config []) = t := by
  cases t <;> rfl

/-- What a frame changes of a renderer. -/
theorem render_eq (now : ℤ) (info : FrameInfo) (detections : List Detection)
    (rules : RuleOverlayData) (image : Image) :
    (r.render (withTrails osd) now info detections rules image).1 =
      { r with
        trajectories :=
          if Tracks r.config info then
            r.trajectories.bind (updateTrajectoryHistory r.config detections)
          else r.trajectories } := by
  unfold OsdRenderer.render
  by_cases hskip : info.width ≤ 0 ∨ info.height ≤ 0 ∨ !r.config.enabled
  · have hnot : ¬ Tracks r.config info := by
      rintro ⟨hwidth, hheight, henabled, -⟩
      simp [henabled] at hskip
      omega
    rw [if_pos hskip, if_neg hnot]
  · rw [if_neg hskip]
    simp only [not_or, not_le, Bool.not_eq_true', Bool.not_eq_false] at hskip
    obtain ⟨hwidth, hheight, henabled⟩ := hskip
    have htracks : Tracks r.config info ↔ r.config.showTrajectory = true :=
      ⟨fun h => h.2.2.2, fun h => ⟨hwidth, hheight, henabled, h⟩⟩
    cases detections with
    | nil => simp [bind_updateTrajectoryHistory_nil]
    | cons det detections =>
        by_cases hshow : r.config.showTrajectory = true
        · simp [htracks, hshow, withTrails]
        · simp [htracks, hshow]

@[simp] theorem config_afterCall : (afterCall osd r call).config = r.config := by
  cases call with
  | render now info detections rules image => rw [afterCall, render_eq]
  | resetTrajectories => rfl

@[simp] theorem config_afterCalls : (afterCalls osd p calls).config = p.config := by
  induction calls using List.reverseRecOn with
  | nil => rfl
  | append_singleton calls call ih => rw [afterCalls_concat, config_afterCall, ih]

/-- **A step of a run**: while the centres can be trimmed, the trails are kept. -/
theorem TrailsKept.step (hint : IsInt p.config.trajectoryMaxPoints) (h : TrailsKept osd p calls)
    (hroom : ∀ classId, Trimmable p.config.trajectoryMaxPoints
      (centresOf classId (sinceReset p.config (calls ++ [call]))).length) :
    TrailsKept osd p (calls ++ [call]) := by
  obtain ⟨t, ht, hkeeps⟩ := h
  rw [sinceReset_concat] at hroom
  unfold TrailsKept
  rw [afterCalls_concat, sinceReset_concat]
  cases call with
  | render now info detections rules image =>
      rw [afterCall, render_eq, config_afterCalls]
      rw [seenAfter] at hroom ⊢
      by_cases htracks : Tracks p.config info
      · rw [if_pos htracks] at hroom ⊢
        rw [if_pos htracks]
        obtain ⟨t', hupdate, hkeeps'⟩ := updateTrajectoryHistory_keeps hint hkeeps hroom
        exact ⟨t', by rw [ht, Option.bind_some, hupdate], hkeeps'⟩
      · rw [if_neg htracks, if_neg htracks]
        exact ⟨t, ht, hkeeps⟩
  | resetTrajectories =>
      exact ⟨∅, by rw [afterCall, ht, Option.map_some], keeps_empty p.config⟩

theorem trailsKept_of_trimmable (hint : IsInt p.config.trajectoryMaxPoints)
    (h : ∀ pre, pre <+: calls → ∀ classId, Trimmable p.config.trajectoryMaxPoints
      (centresOf classId (sinceReset p.config pre)).length) : TrailsKept osd p calls := by
  induction calls using List.reverseRecOn with
  | nil => exact ⟨∅, rfl, keeps_empty p.config⟩
  | append_singleton calls call ih =>
      have hbefore : TrailsKept osd p calls :=
        ih fun pre hpre => h pre (hpre.trans (List.prefix_append _ _))
      exact hbefore.step osd hint (h _ (List.prefix_refl _))

/-- With a negative bound nothing can be rendered with trails. -/
theorem sinceReset_of_neg (hneg : p.config.trajectoryMaxPoints < 0)
    (h : ∀ pre, pre <+: calls → TrailsKept osd p pre) : sinceReset p.config calls = [] := by
  induction calls using List.reverseRecOn with
  | nil => rfl
  | append_singleton calls call ih =>
      have hnone : sinceReset p.config calls = [] :=
        ih fun pre hpre => h pre (hpre.trans (List.prefix_append _ _))
      obtain ⟨t, ht, hkeeps⟩ := h calls (List.prefix_append _ _)
      obtain ⟨t', ht', -⟩ := h (calls ++ [call]) (List.prefix_refl _)
      have hempty : ∀ classId, trail t classId = [] := by
        intro classId
        rw [hkeeps classId, hnone]
        exact List.rtake_nil _
      rw [sinceReset_concat, hnone]
      cases call with
      | render now info detections rules image =>
          rw [afterCalls_concat, afterCall, render_eq, config_afterCalls] at ht'
          rw [seenAfter]
          by_cases htracks : Tracks p.config info
          · rw [if_pos htracks, ht, Option.bind_some] at ht'
            rw [if_pos htracks, List.nil_append]
            cases detections with
            | nil => rfl
            | cons det detections =>
                rw [updateTrajectoryHistory, List.foldlM_cons,
                  extendTrail_of_neg hneg (hempty det.classId)] at ht'
                cases ht'
          · exact if_neg htracks
      | resetTrajectories => rfl

/-- With the greatest `int` as bound the trails hold all centres. -/
theorem trail_of_greatest (hmax : p.config.trajectoryMaxPoints = 2147483647)
    (calls : List OsdCall) :
    ∃ t, (afterCalls osd p calls).trajectories = some t ∧
      ∀ classId, trail t classId = centresOf classId (sinceReset p.config calls) := by
  induction calls using List.reverseRecOn with
  | nil => exact ⟨∅, rfl, fun classId => trail_empty classId⟩
  | append_singleton calls call ih =>
      obtain ⟨t, ht, hall⟩ := ih
      rw [afterCalls_concat, sinceReset_concat]
      cases call with
      | render now info detections rules image =>
          rw [afterCall, render_eq, config_afterCalls, seenAfter]
          by_cases htracks : Tracks p.config info
          · rw [if_pos htracks, if_pos htracks]
            obtain ⟨t', hupdate, hall'⟩ := updateTrajectoryHistory_of_greatest hmax hall
            exact ⟨t', by rw [ht, Option.bind_some, hupdate], hall'⟩
          · rw [if_neg htracks, if_neg htracks]
            exact ⟨t, ht, hall⟩
      | resetTrajectories =>
          exact ⟨∅, by rw [afterCall, ht, Option.map_some], fun classId => trail_empty classId⟩

theorem trimmable_of_trailsKept (hint : IsInt p.config.trajectoryMaxPoints)
    (h : ∀ pre, pre <+: calls → TrailsKept osd p pre) (classId : ℤ) :
    Trimmable p.config.trajectoryMaxPoints
      (centresOf classId (sinceReset p.config calls)).length := by
  rcases lt_or_ge p.config.trajectoryMaxPoints 0 with hneg | hnonneg
  · rw [sinceReset_of_neg osd hneg h]
    exact .inl rfl
  · refine .inr ⟨hnonneg, ?_⟩
    rcases lt_or_ge p.config.trajectoryMaxPoints 2147483647 with hsmall | hlarge
    · exact .inl hsmall
    · have hmax : p.config.trajectoryMaxPoints = 2147483647 := by
        unfold IsInt at hint
        omega
      obtain ⟨t, ht, hall⟩ := trail_of_greatest osd hmax calls
      obtain ⟨t', ht', hkeeps⟩ := h calls (List.prefix_refl _)
      obtain rfl : t = t' := Option.some.inj (ht.symm.trans ht')
      have hlength := congrArg List.length ((hall classId).symm.trans (hkeeps classId))
      rw [length_rtake, bound, hmax] at hlength
      right
      omega

/-- **The trails throughout a run.**  Every trail is the last centres of its class, and no empty
deque is popped, exactly when each class's centres can be trimmed at any time. -/
theorem trailsKept_iff (p : OverlayParams) (calls : List OsdCall)
    (hint : IsInt p.config.trajectoryMaxPoints) :
    (∀ pre, pre <+: calls → TrailsKept osd p pre) ↔
      ∀ pre, pre <+: calls → ∀ classId, Trimmable p.config.trajectoryMaxPoints
        (centresOf classId (sinceReset p.config pre)).length := by
  constructor
  · intro h pre hpre
    exact trimmable_of_trailsKept osd hint fun first hfirst => h first (hfirst.trans hpre)
  · intro h pre hpre
    exact trailsKept_of_trimmable osd hint fun first hfirst => h first (hfirst.trans hpre)

end Runs

/-! ### One frame -/

/-- Drawing functions that leave the picture as it is. -/
def plainDrawing : OsdDrawing (Option Trajectories) where
  ruleRegions _ _ image := image
  ruleLines _ _ image := image
  timestamp _ _ image := image
  channelName _ _ _ image := image
  updateTrajectoryHistory _ _ t := t
  trajectories _ _ image := image
  detections _ _ image := image
  ruleHighlights _ _ image := image

/-- A frame with one person in it. -/
def onePerson : OsdCall :=
  .render 0 { width := 1, height := 1 }
    [{ x1 := 0, y1 := 0, x2 := 1, y2 := 1, confidence := 1, classId := 0, className := "person" }]
    {} (blackSquare 1 Nat.one_pos)

/-- The settings of a channel with this many points to a trail. -/
def trailParams (maxPoints : ℤ) : OverlayParams where
  config := { showTrajectory := true, trajectoryMaxPoints := maxPoints }
  channelName := "Gate"
  channelId := 3

/-- The person has moved on by the next frame. -/
def onePersonMoved : OsdCall :=
  .render 40000 { width := 4, height := 1 }
    [{ x1 := 2, y1 := 0, x2 := 4, y2 := 1, confidence := 1, classId := 0, className := "person" }]
    {} (blackSquare 1 Nat.one_pos)

/-- With one point to a trail the second frame trims it. -/
theorem trailsKept_trimmed :
    TrailsKept plainDrawing (trailParams 1) [] ∧
      TrailsKept plainDrawing (trailParams 1) [onePerson] ∧
      TrailsKept plainDrawing (trailParams 1) [onePerson, onePersonMoved] := by
  have hkept : ∀ pre, pre <+: [onePerson, onePersonMoved] →
      TrailsKept plainDrawing (trailParams 1) pre :=
    (trailsKept_iff plainDrawing (trailParams 1) [onePerson, onePersonMoved]
      (by decide : IsInt 1)).mpr fun _ _ _ => .inr ⟨by decide, .inl (by decide)⟩
  exact ⟨hkept [] List.nil_prefix, hkept [onePerson] ⟨[onePersonMoved], rfl⟩,
    hkept [onePerson, onePersonMoved] List.prefix_rfl⟩

/-- The number −1 is accepted, reaches the renderer, and with the first detection an empty deque is
popped. -/
theorem trails_refuted :
    mergeOverlay {} (.obj [("show_trajectory", .bool true), ("trajectory_max_points", .num (-1))]) =
        some (trailParams (-1)).config ∧
      (initializeOverlay smallLibrary (makeOverlayStageParams smallLibrary
        { gateChannel "Gate" with overlay := (trailParams (-1)).config })).1 = trailParams (-1) ∧
      ¬ TrailsKept plainDrawing (trailParams (-1)) [onePerson] := by
  have hint : IntFields { gateChannel "Gate" with overlay := (trailParams (-1)).config } :=
    { intFields_gateChannel "Gate" with
      lineThickness := (by decide : IsInt 2)
      trajectoryMaxPoints := (by decide : IsInt (-1))
      timestampPosition := (by decide : IsInt 0) }
  refine ⟨mergeOverlay_maxPoints {} (by decide), ?_, ?_⟩
  · have hcarries := (carries_overlayMembers_iff lawful_smallLibrary hint).mpr
      ⟨by decide, by decide⟩
    rw [initializeOverlay_of_carries lawful_smallLibrary hint hcarries]
    show OverlayParams.mk { (trailParams (-1)).config with
      fontScale := smallLibrary.number (smallLibrary.print (1 / 2))
      fillOpacity := smallLibrary.number (smallLibrary.print (8 / 100)) } "Gate" 3 = _
    rw [print_smallLibrary.1, print_smallLibrary.2]
    rfl
  · rintro ⟨t, ht, -⟩
    have hpop : (afterCalls plainDrawing (trailParams (-1)) [onePerson]).trajectories = none := rfl
    rw [hpop] at ht
    cases ht

end LoongNvr.Overlay
