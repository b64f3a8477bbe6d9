import LoongNvr.Rules.RuleStore
import LoongNvr.Support.Runs
import Mathlib.Logic.Function.Basic

/-!
# Alarm — AlarmManager

The part of `AlarmManager` that turns detections into alarms.  A call of `ProcessDetection` takes
the manager's mutex four times for each alarm: to fetch the rules that match, to check a rule's
cooldown, to insert the record, and to note when the rule was last triggered.  In between other
calls may run.

* `AlarmManager`: the two tables and the last trigger times.
* `matchingRules`, `checkCooldown`, `insertAlarm`, `noteTrigger`: the critical sections.
* `Detection.advance`: the next one of a call, or its reading of the clock.
* `Alarms.step`: one turn of one of the calls, or time passing.
-/

namespace LoongNvr.Alarm
open Support
open LoongNvr.Rules (cStr)

inductive AlarmSeverity
  | info | warning | critical
  deriving DecidableEq, Repr

inductive AlarmStatus
  | active | acknowledged | dismissed
  deriving DecidableEq, Repr

/-- A rule that triggers an alarm, its id apart. -/
structure AlarmRule where
  channelId : ℤ := -1
  eventType : String := ""
  minConfidence : ℚ := 1 / 2
  severity : AlarmSeverity := .warning
  enabled : Bool := true
  name : String := ""
  description : String := ""
  cooldownSec : ℤ := 30
  deriving DecidableEq, Repr

/-- A recorded alarm, its id apart. -/
structure AlarmRecord where
  ruleId : ℤ := 0
  channelId : ℤ := 0
  eventType : String := ""
  confidence : ℚ := 0
  severity : AlarmSeverity := .warning
  status : AlarmStatus := .active
  triggeredAt : ℤ := 0
  acknowledgedAt : ℤ := 0
  acknowledgedBy : String := ""
  metadata : String := ""
  deriving DecidableEq, Repr

/-- `alarm_rules`, `alarm_history` and `last_trigger_times_`. -/
structure AlarmManager where
  rules : Table AlarmRule := .empty
  history : Table AlarmRecord := .empty
  lastTriggerTimes : ℤ → Option ℤ := fun _ => none

namespace AlarmManager

def matchingRules (channelId : ℤ) (eventType : String) (confidence : ℚ) (m : AlarmManager) :
    List (ℤ × AlarmRule) :=
  m.rules.select fun row => row.2.enabled ∧
    (row.2.channelId = channelId ∨ row.2.channelId = -1) ∧
    (row.2.eventType = "" ∨ row.2.eventType = cStr eventType) ∧
    row.2.minConfidence ≤ confidence

/-- `SELECT cooldown_sec`, thirty if there is no such rule. -/
def cooldownSec (ruleId : ℤ) (m : AlarmManager) : ℤ :=
  ((m.rules.find ruleId).map (·.cooldownSec)).getD 30

def checkCooldown (nowMs ruleId : ℤ) (m : AlarmManager) : Bool :=
  match m.lastTriggerTimes ruleId with
  | none => true
  | some last => nowMs - last ≥ m.cooldownSec ruleId * 1000

/-- The new record's id, `-1` if the statement fails. -/
def insertAlarm (succeeds : Bool) (record : AlarmRecord) (m : AlarmManager) : AlarmManager × ℤ :=
  if succeeds then
    ({ m with
        history := m.history.insert
          { record with
            eventType := cStr record.eventType
            metadata := cStr record.metadata
            acknowledgedAt := 0
            acknowledgedBy := "" } }, m.history.seq + 1)
  else (m, -1)

def noteTrigger (ruleId triggeredAt : ℤ) (m : AlarmManager) : AlarmManager :=
  { m with lastTriggerTimes := Function.update m.lastTriggerTimes ruleId (some triggeredAt) }

end AlarmManager

/-! ### A call -/

/-- What a call of `ProcessDetection` does next, and the rules after that. -/
inductive Pending
  | check (rules : List (ℤ × AlarmRule))
  | stamp (rule : ℤ × AlarmRule) (rules : List (ℤ × AlarmRule))
  | insert (record : AlarmRecord) (rules : List (ℤ × AlarmRule))
  | note (record : AlarmRecord) (rules : List (ℤ × AlarmRule))
  deriving DecidableEq

/-- A call of `ProcessDetection`. -/
structure Detection where
  channelId : ℤ
  eventType : String
  confidence : ℚ
  metadata : String
  pending : Pending
  deriving DecidableEq

namespace Detection

/-- `AlarmRecord record; …` -/
def record (d : Detection) (rule : ℤ × AlarmRule) (nowMs : ℤ) : AlarmRecord where
  ruleId := rule.1
  channelId := d.channelId
  eventType := d.eventType
  confidence := d.confidence
  severity := rule.2.severity
  status := .active
  triggeredAt := nowMs
  metadata := d.metadata

/-- The next turn of the loop over the matching rules.  `inserts` is whether an insert succeeds. -/
def advance (nowMs : ℤ) (inserts : Bool) (m : AlarmManager) (d : Detection) :
    AlarmManager × Pending :=
  match d.pending with
  | .check [] => (m, .check [])
  | .check (rule :: rules) =>
      if m.checkCooldown nowMs rule.1 then (m, .stamp rule rules) else (m, .check rules)
  | .stamp rule rules => (m, .insert (d.record rule nowMs) rules)
  | .insert record rules =>
      let (m, alarmId) := m.insertAlarm inserts record
      if alarmId < 0 then (m, .check rules) else (m, .note record rules)
  | .note record rules => (m.noteTrigger record.ruleId record.triggeredAt, .check rules)

end Detection

/-! ### Calls at once -/

/-- The manager, the clock in milliseconds and the calls that have begun. -/
structure Alarms where
  manager : AlarmManager := {}
  clock : ℤ := 0
  calls : List Detection := []

/-- A call begins and fetches the rules that match, the `k`-th call takes its next turn, or time
passes. -/
inductive AlarmStep
  | begin (channelId : ℤ) (eventType : String) (confidence : ℚ) (metadata : String)
  | turn (k : ℕ) (inserts : Bool)
  | tick (ms : ℕ)
  deriving DecidableEq

namespace Alarms

def step (s : Alarms) : AlarmStep → Alarms
  | .begin channelId eventType confidence metadata =>
      { s with
        calls := s.calls ++ [
          { channelId, eventType, confidence, metadata
            pending := .check (s.manager.matchingRules channelId eventType confidence) }] }
  | .turn k inserts =>
      match s.calls[k]? with
      | none => s
      | some d =>
          let (manager, pending) := d.advance s.clock inserts s.manager
          { s with manager, calls := s.calls.set k { d with pending } }
  | .tick ms => { s with clock := s.clock + ms }

/-- No alarm has been recorded yet. -/
def start (rules : Table AlarmRule) (clock : ℤ) : Alarms where
  manager := { rules }
  clock := clock

end Alarms

end LoongNvr.Alarm
