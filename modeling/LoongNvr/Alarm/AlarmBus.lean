import LoongNvr.Alarm.AlarmManager
import LoongNvr.Core.EventBus

/-!
# Alarm — AlarmBus

The handler `AlarmManager::Start` subscribes to `ai.detection`: it runs `ProcessDetection`, which
publishes `alarm.triggered`, while the bus holds its mutex.

* `publishes_detectionHandler_iff`: it publishes exactly if a rule that matches is off cooldown and
  its record is inserted.
* `acyclic_start`: `alarm.triggered` leads back to nothing.
* `delivers_start_iff`: a detection that triggers an alarm is never delivered.
-/

namespace LoongNvr.Alarm
open Support LoongNvr.Core EventBus

/-- What the handler of a manager sees: the manager, the clock in milliseconds, and `running_`. -/
structure AlarmWorld where
  manager : AlarmManager := {}
  clock : ℤ := 0
  running : Bool := true

/-- What is published: nothing, a text, or a record with its id. -/
inductive AlarmData
  | none
  | text (text : String)
  | alarm (id : ℤ) (record : AlarmRecord)

/-- The fields of a parsed `ai.detection` event. -/
structure DetectionEvent where
  channelId : ℤ := -1
  eventType : String := "object_detected"
  maxConfidence : ℚ := 0
  metadata : String := ""
  deriving DecidableEq, Repr

/-- `ProcessDetection` once it has begun, and no call besides. -/
def DetectionEvent.begin (event : DetectionEvent) (rules : List (ℤ × AlarmRule)) : Detection where
  channelId := event.channelId
  eventType := event.eventType
  confidence := event.maxConfidence
  metadata := event.metadata
  pending := .check rules

/-- An act that changes nothing. -/
def look (next : AlarmWorld → HandlerRun AlarmWorld AlarmData) : HandlerRun AlarmWorld AlarmData :=
  .step (.modify id) next

/-- A record inserted, its time noted and the record published; then the rest, as where the insert
fails.  `inserts` is whether it succeeds. -/
def insertAndPublish (inserts : AlarmRecord → Bool) (record : AlarmRecord)
    (rest : HandlerRun AlarmWorld AlarmData) : HandlerRun AlarmWorld AlarmData :=
  .step (.modify fun w =>
    { w with manager := (w.manager.insertAlarm (inserts record) record).1 }) fun w =>
    let alarmId := (w.manager.insertAlarm (inserts record) record).2
    if alarmId < 0 then rest
    else
      .step (.modify fun w =>
        { w with manager := w.manager.noteTrigger record.ruleId record.triggeredAt }) fun _ =>
      .step (.publish "alarm.triggered" (.alarm alarmId record)) fun _ => rest

/-- The loop over the matching rules. -/
def processRules (inserts : AlarmRecord → Bool) (d : Detection) :
    List (ℤ × AlarmRule) → HandlerRun AlarmWorld AlarmData
  | [] => .done (.ok ())
  | rule :: rules =>
      look fun w =>
        if w.manager.checkCooldown w.clock rule.1 then
          look fun w =>
            insertAndPublish inserts (d.record rule w.clock) (processRules inserts d rules)
        else processRules inserts d rules

def processDetection (inserts : AlarmRecord → Bool) (event : DetectionEvent) :
    HandlerRun AlarmWorld AlarmData :=
  look fun w =>
    let rules := w.manager.matchingRules event.channelId event.eventType event.maxConfidence
    processRules inserts (event.begin rules) rules

/-- What is done with a text.  `parse` is what the JSON library makes of it, with the defaults the
handler asks for; what the library throws is caught at once. -/
def handleText (parse : String → Option DetectionEvent) (inserts : AlarmRecord → Bool)
    (text : String) : HandlerRun AlarmWorld AlarmData :=
  match parse text with
  | some event => processDetection inserts event
  | none => .done (.ok ())

/-- The handler; a bad `any_cast` is caught as well. -/
def detectionHandler (parse : String → Option DetectionEvent) (inserts : AlarmRecord → Bool)
    (data : AlarmData) : HandlerRun AlarmWorld AlarmData :=
  look fun w =>
    if w.running then
      match data with
      | .text text => handleText parse inserts text
      | .none | .alarm .. => .done (.ok ())
    else .done (.ok ())

/-- `AlarmManager::Start` -/
def start (parse : String → Option DetectionEvent) (inserts : AlarmRecord → Bool)
    (bus : EventBus AlarmWorld AlarmData) : EventBus AlarmWorld AlarmData × ℕ :=
  bus.subscribe "ai.detection" (detectionHandler parse inserts)

variable {parse : String → Option DetectionEvent} {inserts : AlarmRecord → Bool}

/-! ### When it publishes -/

theorem publishes_look (next : AlarmWorld → HandlerRun AlarmWorld AlarmData) (w : AlarmWorld) :
    Publishes (look next) w ↔ Publishes (next w) w := Iff.rfl

theorem publishes_insertAndPublish_iff (record : AlarmRecord)
    (rest : HandlerRun AlarmWorld AlarmData) (w : AlarmWorld) :
    Publishes (insertAndPublish inserts record rest) w ↔
      inserts record = true ∨ Publishes rest w := by
  rw [insertAndPublish, Publishes]
  cases inserts record with
  | true =>
      have hid : ¬ (w.manager.insertAlarm true record).2 < 0 := by
        have hseq := w.manager.history.seq_nonneg
        show ¬ w.manager.history.seq + 1 < 0
        omega
      dsimp only
      rw [if_neg hid]
      exact iff_of_true trivial (.inl rfl)
  | false => exact (or_iff_right (by simp)).symm

theorem publishes_processRules_iff (d : Detection) (rules : List (ℤ × AlarmRule))
    (w : AlarmWorld) :
    Publishes (processRules inserts d rules) w ↔
      ∃ rule ∈ rules, w.manager.checkCooldown w.clock rule.1 = true ∧
        inserts (d.record rule w.clock) = true := by
  induction rules with
  | nil => exact iff_of_false id (by simp)
  | cons rule rules ih =>
      rw [processRules, publishes_look, List.exists_mem_cons_iff, ← ih]
      by_cases hcooldown : w.manager.checkCooldown w.clock rule.1 = true
      · rw [if_pos hcooldown, publishes_look, publishes_insertAndPublish_iff,
          and_iff_right hcooldown]
      · rw [if_neg hcooldown, or_iff_right]
        exact fun h => hcooldown h.1

/-- A rule that matches the event, is off cooldown and has its record inserted. -/
def Triggers (inserts : AlarmRecord → Bool) (event : DetectionEvent) (w : AlarmWorld) : Prop :=
  ∃ rule ∈ w.manager.matchingRules event.channelId event.eventType event.maxConfidence,
    w.manager.checkCooldown w.clock rule.1 = true ∧
      inserts ((event.begin []).record rule w.clock) = true

theorem publishes_handleText_iff (text : String) (w : AlarmWorld) :
    Publishes (handleText parse inserts text) w ↔
      ∃ event, parse text = some event ∧ Triggers inserts event w := by
  rw [handleText]
  cases hparse : parse text with
  | none => exact iff_of_false id (by simp)
  | some event =>
      have hevent : (∃ event', some event = some event' ∧ Triggers inserts event' w) ↔
          Triggers inserts event w := by simp
      rw [hevent]
      show Publishes (processDetection inserts event) w ↔ _
      exact publishes_processRules_iff _ _ w

/-- **The handler publishes** exactly if the manager runs and the text is of a detection that
triggers an alarm. -/
theorem publishes_detectionHandler_iff (data : AlarmData) (w : AlarmWorld) :
    Publishes (detectionHandler parse inserts data) w ↔
      w.running = true ∧ ∃ text event, data = .text text ∧ parse text = some event ∧
        Triggers inserts event w := by
  unfold detectionHandler
  rw [publishes_look]
  cases w.running with
  | false => exact iff_of_false id (by simp)
  | true =>
      cases data with
      | text text =>
          refine (publishes_handleText_iff text w).trans ?_
          simp
      | none => exact iff_of_false id (by simp)
      | alarm id record => exact iff_of_false (fun h => h) (by simp)

/-! ### What it publishes -/

/-- An act that publishes nothing but `alarm.triggered`. -/
def OnlyTriggers (act : HandlerAct AlarmWorld AlarmData) : Prop :=
  ∀ eventType data, act = .publish eventType data → eventType = "alarm.triggered"

theorem onlyTriggers_modify (f : AlarmWorld → AlarmWorld) : OnlyTriggers (.modify f) :=
  fun _ _ h => absurd h (by simp)

theorem all_insertAndPublish (record : AlarmRecord) {rest : HandlerRun AlarmWorld AlarmData}
    (h : rest.All OnlyTriggers) : (insertAndPublish inserts record rest).All OnlyTriggers := by
  refine ⟨onlyTriggers_modify _, fun w => ?_⟩
  dsimp only
  split
  · exact h
  · refine ⟨onlyTriggers_modify _, fun _ => ⟨fun eventType data heq => ?_, fun _ => h⟩⟩
    exact (HandlerAct.publish.inj heq).1.symm

theorem all_processRules (d : Detection) (rules : List (ℤ × AlarmRule)) :
    (processRules inserts d rules).All OnlyTriggers := by
  induction rules with
  | nil => trivial
  | cons rule rules ih =>
      refine ⟨onlyTriggers_modify _, fun w => ?_⟩
      dsimp only
      split
      · exact ⟨onlyTriggers_modify _, fun w => all_insertAndPublish _ ih⟩
      · exact ih

theorem all_detectionHandler (data : AlarmData) :
    (detectionHandler parse inserts data).All OnlyTriggers := by
  refine ⟨onlyTriggers_modify _, fun w => ?_⟩
  dsimp only
  split
  · cases data with
    | text text =>
        show (handleText parse inserts text).All OnlyTriggers
        rw [handleText]
        cases parse text with
        | none => trivial
        | some event => exact ⟨onlyTriggers_modify _, fun w => all_processRules _ _⟩
    | none => trivial
    | alarm id record => trivial
  · trivial

/-! ### The wiring -/

theorem subscribersOf_start (eventType : String) :
    (start parse inserts {}).1.subscribersOf eventType =
      if eventType = "ai.detection" then [⟨1, detectionHandler parse inserts⟩] else [] := by
  simp only [start, subscribe, pushBack, subscribersOf, List.lookup_cons, List.lookup_nil]
  by_cases heq : eventType = "ai.detection"
  · simp [heq]
  · simp [heq, beq_eq_false_iff_ne.mpr heq]

variable (parse inserts) in
/-- Events do not lead back to themselves: detections lead to alarms and alarms to nothing. -/
theorem acyclic_start : Acyclic (start parse inserts {}).1 := by
  have hmay : ∀ {eventType other}, MayPublish (start parse inserts {}).1 eventType other →
      eventType = "ai.detection" ∧ other = "alarm.triggered" := by
    rintro eventType other ⟨sub, hsub, data, hpublishes⟩
    rw [subscribersOf_start] at hsub
    split at hsub
    case isFalse => exact absurd hsub (by simp)
    case isTrue heq =>
      refine ⟨heq, ?_⟩
      obtain rfl := List.mem_singleton.mp hsub
      by_contra hother
      refine hpublishes (Program.All.mono (fun act honly data' hact => ?_)
        (all_detectionHandler data))
      exact hother (honly other data' hact)
  intro eventType hcycle
  obtain ⟨_, hfirst, -⟩ := Relation.TransGen.head'_iff.mp hcycle
  obtain ⟨_, -, hlast⟩ := Relation.TransGen.tail'_iff.mp hcycle
  have hname := (hmay hfirst).1.symm.trans (hmay hlast).2
  exact absurd hname (by decide)

/-- A detection is delivered exactly if it triggers no alarm. -/
theorem delivers_start_iff (data : AlarmData) (w : AlarmWorld) :
    Delivers (start parse inserts {}).1 "ai.detection" data w ↔
      ¬ (w.running = true ∧ ∃ text event, data = .text text ∧ parse text = some event ∧
        Triggers inserts event w) := by
  have hnone : NonePublishes data ((start parse inserts {}).1.subscribersOf "ai.detection") w ↔
      ¬ Publishes (detectionHandler parse inserts data) w := by
    rw [subscribersOf_start, if_pos rfl]
    exact and_iff_left trivial
  rw [← publishes_detectionHandler_iff, ← hnone]
  refine ⟨fun h => ?_, delivers_of_none⟩
  by_contra hpublishes
  exact not_delivers hpublishes h

def oneDetection : String := "\x7b\"channel_id\":1,\"max_confidence\":0.75\x7d"

/-- What the JSON library makes of that text, and of nothing else. -/
def parseOne (text : String) : Option DetectionEvent :=
  if text = oneDetection then
    some { channelId := 1, maxConfidence := 3 / 4, metadata := oneDetection }
  else none

/-- One rule for every channel and event. -/
def oneRule : AlarmWorld where
  manager := { rules := Table.empty.insert { name := "any" } }

/-- The detection triggers the rule, so the thread that publishes it waits for itself. -/
theorem delivers_refuted :
    ¬ ∀ (bus : EventBus AlarmWorld AlarmData) (eventType : String) (data : AlarmData)
      (w : AlarmWorld), Acyclic bus → Delivers bus eventType data w := by
  intro h
  have hdelivers := h _ "ai.detection" (.text oneDetection) oneRule
    (acyclic_start parseOne fun _ => true)
  refine delivers_start_iff _ _ |>.mp hdelivers ⟨rfl, oneDetection, _, rfl, if_pos rfl, ?_⟩
  exact ⟨(1, { name := "any" }), by decide +kernel, rfl, rfl⟩

end LoongNvr.Alarm
