import LoongNvr.Rules.FrameRuns
import LoongNvr.Rules.RuleIsolation

/-!
# Rules — RuleSpacing

How far apart the events of one rule lie.  An entry is not evaluated while less than its cooldown
has passed since its last event; the cooldown is counted in milliseconds, as a 32-bit product of
the rule's seconds.

* `eventsOf_eq`: the events of a rule are those of its own entry, whatever other rules there are.
* `spaced_entryEvents`: the events of an entry are its cooldown apart.
* `cooldownKept_iff`: every rule with a cooldown of so many seconds keeps it exactly if the
  milliseconds fit an int.
-/

namespace LoongNvr.Rules.RuleEngine
open LoongNvr.Core Support IouTracker

/-- The timestamps are positive and do not decrease. -/
def InOrder (frames : List RuleFrame) : Prop :=
  (∀ frame ∈ frames, 0 < frame.2.timestampMs) ∧
    frames.Pairwise fun a b => a.2.timestampMs ≤ b.2.timestampMs

/-- Two events of different times are this many milliseconds apart. -/
def Spaced (cooldownMs : ℤ) (events : List RuleEvent) : Prop :=
  events.Pairwise fun a b =>
    a.timestamp ≠ b.timestamp → cooldownMs ≤ |a.timestamp - b.timestamp|

/-- Every stored rule with this cooldown keeps it in every sequence of frames of any channels, and
emits what it would emit next to any other rules. -/
def CooldownKept (cooldownSec : ℤ) : Prop :=
  ∀ (srt : PairSorter) (engine : RuleEngine) (channelId : ℤ),
    ∀ rule ∈ engine.store.listEnabledRulesByChannel channelId, rule.cooldownSec = cooldownSec →
    ∀ frames : List (ℤ × RuleFrame), InOrder (frames.map (·.2)) →
      Spaced (1000 * cooldownSec) (eventsOf srt engine.loadRules frames rule.id) ∧
      ∀ other : RuleEngine, rule ∈ other.store.listEnabledRulesByChannel channelId →
        eventsOf srt other.loadRules frames rule.id = eventsOf srt engine.loadRules frames rule.id

/-! ### A rule among others -/

variable {srt : PairSorter}

/-- The frames of one channel. -/
def framesOf (channelId : ℤ) (frames : List (ℤ × RuleFrame)) : List RuleFrame :=
  (frames.filter fun frame => frame.1 = channelId).map (·.2)

theorem framesOf_cons (channelId other : ℤ) (frame : RuleFrame) (frames : List (ℤ × RuleFrame)) :
    framesOf channelId ((other, frame) :: frames) =
      if other = channelId then frame :: framesOf channelId frames
      else framesOf channelId frames := by
  by_cases heq : other = channelId
  · simp [framesOf, heq]
  · simp [framesOf, heq]

/-- The rule has this entry on the channel and none on another. -/
structure OnlyEntry (engine : RuleEngine) (channelId ruleId : ℤ) (entry : EvaluatorEntry) :
    Prop where
  here : entryOf engine channelId ruleId = some entry
  elsewhere : ∀ other, other ≠ channelId → entryOf engine other ruleId = none

/-- A frame of its channel steps the entry, another leaves it. -/
theorem OnlyEntry.frameStep {engine : RuleEngine} {channelId ruleId : ℤ} {entry : EvaluatorEntry}
    (h : OnlyEntry engine channelId ruleId entry) (srt : PairSorter) (other : ℤ)
    (frame : RuleFrame) :
    OnlyEntry (frameStep srt other engine frame) channelId ruleId
      (if other = channelId then entryStep srt entry frame else entry) := by
  by_cases heq : other = channelId
  · subst heq
    refine ⟨?_, fun third hne => ?_⟩
    · rw [if_pos rfl, entryOf_frameStep, h.here]
      rfl
    · rw [entryOf, entries_frameStep_of_ne srt engine frame hne]
      exact h.elsewhere third hne
  · refine ⟨?_, fun third hne => ?_⟩
    · rw [if_neg heq, entryOf, entries_frameStep_of_ne srt engine frame (Ne.symm heq)]
      exact h.here
    · by_cases hthird : third = other
      · subst hthird
        rw [entryOf_frameStep, h.elsewhere third hne]
        rfl
      · rw [entryOf, entries_frameStep_of_ne srt engine frame hthird]
        exact h.elsewhere third hne

/-- **The events of a rule are those of its own entry** on the frames of its channel. -/
theorem eventsOf_eq {channelId ruleId : ℤ} (frames : List (ℤ × RuleFrame)) {engine : RuleEngine}
    {entry : EvaluatorEntry} (hnamed : ∀ channelId, WellNamed engine channelId)
    (h : OnlyEntry engine channelId ruleId entry) :
    eventsOf srt engine frames ruleId = entryEvents srt entry (framesOf channelId frames) := by
  induction frames generalizing engine entry with
  | nil => rfl
  | cons first frames ih =>
      obtain ⟨other, frame⟩ := first
      rw [eventsOf_cons, evaluate_ruleEvents (hnamed other),
        ih (wellNamed_frameStep srt hnamed other frame) (h.frameStep srt other frame)]
      by_cases heq : other = channelId
      · subst heq
        rw [h.here, if_pos rfl, framesOf_cons, if_pos rfl]
        rfl
      · rw [h.elsewhere other heq, if_neg heq, framesOf_cons, if_neg heq]
        rfl

/-- A loaded rule has its entry on its channel only. -/
theorem onlyEntry_loadRules (engine : RuleEngine) {channelId : ℤ} {rule : AnalysisRule}
    (h : rule ∈ engine.store.listEnabledRulesByChannel channelId) :
    OnlyEntry engine.loadRules channelId rule.id (makeEntry rule) := by
  refine ⟨entryOf_loadRules engine h, fun other hne => ?_⟩
  rw [entryOf, List.find?_eq_none]
  intro entry hentry hid
  rw [entries_loadRules, buildEvaluators] at hentry
  obtain ⟨rule', hrule', rfl⟩ := List.mem_map.mp hentry
  obtain ⟨row, hrow, rfl⟩ := List.mem_map.mp h
  obtain ⟨row', hrow', rfl⟩ := List.mem_map.mp hrule'
  obtain ⟨hmem, hon⟩ := List.mem_filter.mp hrow
  obtain ⟨hmem', hon'⟩ := List.mem_filter.mp hrow'
  -- the table has one row with the id, and that is on one channel
  have hsame : row' = row := by
    refine List.inj_on_of_nodup_map engine.store.rules.nodup_ids hmem' hmem ?_
    simpa [makeEntry] using hid
  subst hsame
  simp only [RuleStore.enabledOn, Bool.and_eq_true, decide_eq_true_eq] at hon hon'
  exact hne (hon'.1.symm.trans hon.1)

/-- **A loaded rule** emits the events of its entry, whatever other rules there are. -/
theorem eventsOf_loadRules (engine : RuleEngine) {channelId : ℤ} {rule : AnalysisRule}
    (h : rule ∈ engine.store.listEnabledRulesByChannel channelId)
    (frames : List (ℤ × RuleFrame)) :
    eventsOf srt engine.loadRules frames rule.id =
      entryEvents srt (makeEntry rule) (framesOf channelId frames) :=
  eventsOf_eq frames (fun _ => wellNamed_loadRules engine) (onlyEntry_loadRules engine h)

/-! ### One entry -/

/-- A frame that gives events sets the entry's clock to its time. -/
theorem lastEventTimeMs_entryStep {entry : EvaluatorEntry} {frame : RuleFrame}
    (h : (evaluateEntry srt frame.1 frame.2 entry).2 ≠ []) :
    (entryStep srt entry frame).lastEventTimeMs = frame.2.timestampMs := by
  have hnames := evaluateEntry_events srt frame.1 frame.2 entry
  rw [entryStep, evaluateEntry] at *
  split at h
  · exact absurd rfl h
  · next hcool =>
      rw [if_neg hcool] at hnames ⊢
      obtain ⟨events, event, hlast⟩ := List.eq_nil_or_concat _ |>.resolve_left h
      dsimp only at hnames hlast ⊢
      rw [hlast, List.concat_eq_append] at hnames ⊢
      rw [List.foldl_concat]
      exact (hnames event List.mem_concat_self).2.2

/-- A frame without events leaves the clock. -/
theorem lastEventTimeMs_entryStep_nil {entry : EvaluatorEntry} {frame : RuleFrame}
    (h : (evaluateEntry srt frame.1 frame.2 entry).2 = []) :
    (entryStep srt entry frame).lastEventTimeMs = entry.lastEventTimeMs := by
  rw [entryStep, evaluateEntry] at *
  split at h
  · next hcool => rw [if_pos hcool]
  · next hcool =>
      rw [if_neg hcool]
      dsimp only at h ⊢
      rw [h]
      rfl

@[simp] theorem cooldownMs_entryStep (entry : EvaluatorEntry) (frame : RuleFrame) :
    (entryStep srt entry frame).cooldownMs = entry.cooldownMs := by
  rw [entryStep, evaluateEntry]
  split <;> rfl

/-- Events come after the clock's time by the cooldown. -/
theorem entryEvents_after {frames : List RuleFrame} {entry : EvaluatorEntry}
    (hcooldown : 0 ≤ entry.cooldownMs) (htimes : ∀ frame ∈ frames, 0 < frame.2.timestampMs)
    (hlast : 0 < entry.lastEventTimeMs) :
    ∀ event ∈ entryEvents srt entry frames,
      entry.lastEventTimeMs + entry.cooldownMs ≤ event.timestamp := by
  induction frames generalizing entry with
  | nil => exact fun _ hevent => absurd hevent List.not_mem_nil
  | cons frame frames ih =>
      have hrest : ∀ frame ∈ frames, 0 < frame.2.timestampMs := fun f hf =>
        htimes f (List.mem_cons_of_mem _ hf)
      have hnow : ∀ event ∈ (evaluateEntry srt frame.1 frame.2 entry).2,
          entry.lastEventTimeMs + entry.cooldownMs ≤ frame.2.timestampMs := by
        intro event hevent
        rw [evaluateEntry] at hevent
        split at hevent
        · exact absurd hevent List.not_mem_nil
        · next hcool =>
            rw [CoolingDown] at hcool
            omega
      have hstep := @ih (entryStep srt entry frame)
      rw [cooldownMs_entryStep] at hstep
      intro event hevent
      rcases List.mem_append.mp hevent with hfirst | hlater
      · rw [(evaluateEntry_events srt frame.1 frame.2 entry event hfirst).2.2]
        exact hnow event hfirst
      · by_cases hnil : (evaluateEntry srt frame.1 frame.2 entry).2 = []
        · rw [lastEventTimeMs_entryStep_nil hnil] at hstep
          exact hstep hcooldown hrest hlast event hlater
        · rw [lastEventTimeMs_entryStep hnil] at hstep
          have hlate := hstep hcooldown hrest (htimes frame List.mem_cons_self) event hlater
          obtain ⟨earlier, hearlier⟩ := List.exists_mem_of_ne_nil _ hnil
          have := hnow earlier hearlier
          omega

/-- **The events of an entry are its cooldown apart.** -/
theorem spaced_entryEvents {frames : List RuleFrame} {entry : EvaluatorEntry}
    (hcooldown : 0 ≤ entry.cooldownMs) (htimes : ∀ frame ∈ frames, 0 < frame.2.timestampMs) :
    Spaced entry.cooldownMs (entryEvents srt entry frames) := by
  induction frames generalizing entry with
  | nil => exact List.Pairwise.nil
  | cons frame frames ih =>
      have hrest : ∀ frame ∈ frames, 0 < frame.2.timestampMs := fun f hf =>
        htimes f (List.mem_cons_of_mem _ hf)
      have hnames := evaluateEntry_events srt frame.1 frame.2 entry
      have hspaced := @ih (entryStep srt entry frame)
      have hafter := @entryEvents_after srt frames (entryStep srt entry frame)
      rw [cooldownMs_entryStep] at hspaced hafter
      refine List.pairwise_append.mpr ⟨?_, hspaced hcooldown hrest, ?_⟩
      · -- the events of one frame have its time
        refine List.pairwise_of_forall_mem_list fun a ha b hb hne => ?_
        exact absurd ((hnames a ha).2.2.trans (hnames b hb).2.2.symm) hne
      · intro a ha b hb _
        have hclock := lastEventTimeMs_entryStep (List.ne_nil_of_mem ha)
        rw [hclock] at hafter
        have hlate := hafter hcooldown hrest (htimes frame List.mem_cons_self) b hb
        rw [(hnames a ha).2.2]
        exact (by omega : entry.cooldownMs ≤ b.timestamp - frame.2.timestampMs).trans
          ((le_abs_self _).trans (abs_sub_comm _ _).le)

/-! ### Cooldowns that do not fit -/

/-- The rule with another cooldown. -/
def withCooldown (rule : AnalysisRule) (cooldownSec : ℤ) : AnalysisRule :=
  { rule with cooldownSec := cooldownSec }

/-- A region intrusion evaluator does not look at the cooldown. -/
theorem evaluate_withCooldown (srt : PairSorter) (e : RegionIntrusionEvaluator)
    (detections : List Detection) (context : FrameContext) (cooldownSec : ℤ) :
    ({ e with rule := withCooldown e.rule cooldownSec } : RegionIntrusionEvaluator).evaluate srt
        detections context =
      (e.evaluate srt detections context).map
        (fun e => { e with rule := withCooldown e.rule cooldownSec }) id := by
  have hvisit : RegionIntrusionEvaluator.visitTrack (withCooldown e.rule cooldownSec) context =
      RegionIntrusionEvaluator.visitTrack e.rule context := rfl
  have hregion : (withCooldown e.rule cooldownSec).region = e.rule.region := rfl
  simp only [RegionIntrusionEvaluator.evaluate, hvisit, hregion]
  split <;> rfl

/-- A rule that guards the whole picture of channel 0. -/
def wholeRule : AnalysisRule where
  type := .regionIntrusion
  channelId := 0
  region := { vertices := [{ x := 0, y := 0 }, { x := 1, y := 0 }, { x := 1, y := 1 },
    { x := 0, y := 1 }] }

/-- An engine with the rule stored, with this cooldown. -/
def wholeEngine (cooldownSec : ℤ) : RuleEngine :=
  { store := (RuleStore.createRule {} (withCooldown wholeRule cooldownSec) 0).1 }

/-- The rule as it is stored. -/
def storedWholeRule : AnalysisRule := { wholeRule with id := 1 }

theorem storedWholeRule_mem (cooldownSec : ℤ) :
    withCooldown storedWholeRule cooldownSec ∈
      (wholeEngine cooldownSec).store.listEnabledRulesByChannel 0 := by
  have hstored : decodeRule (1, encodeRule (withCooldown wholeRule cooldownSec) 0) =
      withCooldown storedWholeRule cooldownSec :=
    decodeRule_encodeRule (withCooldown wholeRule cooldownSec) 1 0 0
  rw [← hstored]
  exact List.mem_singleton_self _

/-- A frame of 100 by 100 pixels with one person 20 pixels wide, whose left edge is at `x`. -/
def wholeFrame (x ms : ℤ) : ℤ × RuleFrame :=
  (0,
    [{ x1 := x, y1 := 40, x2 := x + 20, y2 := 60, confidence := 9 / 10, classId := 0,
       className := "person" }],
    { channelId := 0, timestampMs := ms, frameWidth := 100, frameHeight := 100 })

/-- Two persons, the second when the time that has passed is the largest int. -/
def twoPersons : List (ℤ × RuleFrame) := [wholeFrame 10 1, wholeFrame 70 2147483648]

theorem inOrder_twoPersons : InOrder (twoPersons.map (·.2)) := by
  refine ⟨?_, ?_⟩
  · simp [twoPersons, wholeFrame]
  · simp [twoPersons, wholeFrame]

/-- The rule's evaluator as it is configured. -/
def freshEvaluator : RegionIntrusionEvaluator :=
  RegionIntrusionEvaluator.configure {} storedWholeRule

/-- The evaluator and its events after the first person. -/
def firstPerson : RegionIntrusionEvaluator × List RuleEvent :=
  freshEvaluator.evaluate byIou (wholeFrame 10 1).2.1 (wholeFrame 10 1).2.2

/-- And after the second. -/
def secondPerson : RegionIntrusionEvaluator × List RuleEvent :=
  firstPerson.1.evaluate byIou (wholeFrame 70 2147483648).2.1 (wholeFrame 70 2147483648).2.2

theorem firstPerson_timestamp : firstPerson.2.map (·.timestamp) = [1] := by decide +kernel

theorem secondPerson_timestamp : secondPerson.2.map (·.timestamp) = [2147483648] := by
  decide +kernel

/-- A cooldown that is an int has run out when the second person comes. -/
theorem entryEvents_twoPersons {cooldownSec : ℤ}
    (hint : toInt32 (cooldownSec * 1000) ≤ 2147483647) :
    entryEvents byIou (makeEntry (withCooldown storedWholeRule cooldownSec))
        (framesOf 0 twoPersons) = firstPerson.2 ++ secondPerson.2 := by
  set entry := makeEntry (withCooldown storedWholeRule cooldownSec) with hentry
  set first := (wholeFrame 10 1).2 with hfirst
  set second := (wholeFrame 70 2147483648).2 with hsecond
  have hstart : entry.evaluator = .regionIntrusion
      { freshEvaluator with rule := withCooldown freshEvaluator.rule cooldownSec } := rfl
  have hcool : ¬ CoolingDown entry first.2 := fun h => absurd h.1 (lt_irrefl 0)
  have hevaluate : entry.evaluator.evaluate byIou first.1 first.2 =
      (.regionIntrusion { firstPerson.1 with rule := withCooldown firstPerson.1.rule cooldownSec },
        firstPerson.2) := by
    rw [hstart, Evaluator.evaluate, evaluate_withCooldown]
    rfl
  have hone : (evaluateEntry byIou first.1 first.2 entry).2 = firstPerson.2 := by
    rw [evaluateEntry, if_neg hcool, hevaluate]
  have hnext : (entryStep byIou entry first).evaluator = .regionIntrusion
      { firstPerson.1 with rule := withCooldown firstPerson.1.rule cooldownSec } := by
    rw [entryStep_evaluator hcool, hevaluate]
  have hsome : firstPerson.2 ≠ [] := fun h => by
    have := firstPerson_timestamp
    rw [h] at this
    exact absurd this (List.cons_ne_nil _ _).symm
  have hclock : (entryStep byIou entry first).lastEventTimeMs = first.2.timestampMs := by
    refine lastEventTimeMs_entryStep ?_
    rw [hone]
    exact hsome
  have hcool' : ¬ CoolingDown (entryStep byIou entry first) second.2 := by
    rintro ⟨-, hsoon⟩
    rw [hclock, cooldownMs_entryStep] at hsoon
    exact absurd hsoon (not_lt.mpr hint)
  have htwo : (evaluateEntry byIou second.1 second.2 (entryStep byIou entry first)).2 =
      secondPerson.2 := by
    rw [evaluateEntry, if_neg hcool', hnext, Evaluator.evaluate, evaluate_withCooldown]
    rfl
  show (evaluateEntry byIou first.1 first.2 entry).2 ++
    ((evaluateEntry byIou second.1 second.2 (entryStep byIou entry first)).2 ++ []) = _
  rw [hone, htwo, List.append_nil]

/-- The two persons are seen too soon after one another. -/
theorem not_spaced_twoPersons {cooldownMs : ℤ} (h : 2147483647 < cooldownMs) :
    ¬ Spaced cooldownMs (firstPerson.2 ++ secondPerson.2) := by
  intro hspaced
  obtain ⟨a, ha, hatime⟩ := List.mem_map.mp
    (firstPerson_timestamp ▸ List.mem_singleton_self 1 : (1 : ℤ) ∈ firstPerson.2.map (·.timestamp))
  obtain ⟨b, hb, hbtime⟩ := List.mem_map.mp
    (secondPerson_timestamp ▸ List.mem_singleton_self _ :
      (2147483648 : ℤ) ∈ secondPerson.2.map (·.timestamp))
  have hapart := (List.pairwise_append.mp hspaced).2.2 a ha b hb
  rw [hatime, hbtime] at hapart
  have := hapart (by decide)
  norm_num at this
  omega

/-- An int of 32 bits is at most 2147483647. -/
theorem toInt32_le_max (v : ℤ) : toInt32 v ≤ 2147483647 := by
  have := @Int.bmod_lt v 4294967296 (by decide)
  rw [toInt32]
  omega

/-- Where the milliseconds do not fit, the rule reports both persons. -/
theorem not_spaced_wholeEngine {cooldownSec : ℤ} (h : 2147483648 ≤ 1000 * cooldownSec) :
    ¬ Spaced (1000 * cooldownSec)
      (eventsOf byIou (wholeEngine cooldownSec).loadRules twoPersons 1) := by
  have hevents := @eventsOf_loadRules byIou (wholeEngine cooldownSec) 0 _
    (storedWholeRule_mem cooldownSec) twoPersons
  have hid : (withCooldown storedWholeRule cooldownSec).id = 1 := rfl
  rw [hid] at hevents
  rw [hevents, entryEvents_twoPersons (toInt32_le_max _)]
  exact not_spaced_twoPersons (by omega)

theorem not_cooldownKept {cooldownSec : ℤ} (h : 2147483648 ≤ 1000 * cooldownSec) :
    ¬ CooldownKept cooldownSec := by
  intro hkept
  have hspaced := (hkept byIou (wholeEngine cooldownSec) 0 _ (storedWholeRule_mem cooldownSec)
    rfl twoPersons inOrder_twoPersons).1
  exact not_spaced_wholeEngine h hspaced

/-- **A rule's cooldown is kept** in every sequence of frames exactly if it fits an int in
milliseconds. -/
theorem cooldownKept_iff (cooldownSec : ℤ) :
    CooldownKept cooldownSec ↔ 1000 * cooldownSec < 2147483648 := by
  constructor
  · intro hkept
    by_contra h
    exact not_cooldownKept (not_lt.mp h) hkept
  · intro hfits srt engine channelId rule hrule hcooldown frames horder
    refine ⟨?_, fun other hother => ?_⟩
    · rw [eventsOf_loadRules engine hrule]
      rcases lt_or_ge cooldownSec 0 with hneg | hnonneg
      · -- below 0 there is nothing to keep
        exact List.pairwise_of_forall fun a b _ => le_trans (by omega) (abs_nonneg _)
      · have hms : (makeEntry rule).cooldownMs = 1000 * cooldownSec := by
          rw [makeEntry, hcooldown, mul_comm]
          exact toInt32_of_fits (by omega) hfits
        rw [← hms]
        refine spaced_entryEvents (by omega) fun frame hframe => ?_
        obtain ⟨entry, hentry, rfl⟩ := List.mem_map.mp hframe
        exact horder.1 _ (List.mem_map_of_mem (List.mem_of_mem_filter hentry))
    · rw [eventsOf_loadRules engine hrule, eventsOf_loadRules other hother]

/-- 2147484 seconds are more milliseconds than an int holds: two persons are reported 2147483647
milliseconds apart. -/
theorem cooldownKept_refuted :
    InOrder (twoPersons.map (·.2)) ∧
      ¬ Spaced (1000 * 2147484) (eventsOf byIou (wholeEngine 2147484).loadRules
        twoPersons 1) ∧
      ¬ CooldownKept 2147484 :=
  ⟨inOrder_twoPersons, not_spaced_wholeEngine (by decide), not_cooldownKept (by decide)⟩

end LoongNvr.Rules.RuleEngine
