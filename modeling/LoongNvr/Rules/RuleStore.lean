import LoongNvr.Rules.Types
import LoongNvr.Support.Json
import LoongNvr.Support.Sorter
import LoongNvr.Support.Table
import Mathlib.Data.List.TakeWhile

/-!
# Rules — RuleStore

The SQLite store of the rules and of the events they generated.  The geometric and filtering
parameters and the schedule of a rule are one JSON column; reading it back stops at the first
value of the wrong kind and keeps what was read until then.

Statements succeed, and the clock is an argument (`now`, in seconds).  The JSON column holds the
value rather than its text; a text the parser refuses is `none`.

* `deserializeParams_serializeParams`: the JSON column gives back what it was made from.
* `queryEvents`: the events of a channel between two times, the newest first.
* `decodeRule_encodeRule`: a stored rule is read back as it was given, but for its id, its
  timestamps and a name cut at its first NUL.
-/

namespace LoongNvr.Rules
open LoongNvr.Core Support

/-- What `c_str()` passes on of a string: the part before the first NUL. -/
def cStr (s : String) : String := String.ofList (s.toList.takeWhile (· ≠ '\x00'))

/-- A string is passed on whole where it has no NUL. -/
theorem cStr_eq_self_iff (s : String) : cStr s = s ↔ '\x00' ∉ s.toList := by
  rw [cStr, ← String.toList_inj, String.toList_ofList, List.takeWhile_eq_self_iff]
  constructor
  · intro h hnul
    simpa using h _ hnul
  · intro h c hc
    exact decide_eq_true fun hnul => h (hnul ▸ hc)

/-- A row of `rules`, its id apart. -/
structure RuleRow where
  name : String
  type : String
  channelId : ℤ
  enabled : Bool
  minConfidence : ℚ
  loiterTimeSec : ℤ
  cooldownSec : ℤ
  params : Option Json
  createdAt : ℤ
  updatedAt : ℤ

/-- A row of `rule_events`, its id apart. -/
structure EventRow where
  ruleId : ℤ
  ruleName : String
  ruleType : String
  channelId : ℤ
  timestampMs : ℤ
  severity : String
  trigger : Json
  countValue : ℤ
  dwellTimeSec : ℤ
  direction : String
  metadataJson : String

/-- The database. -/
structure RuleStore where
  rules : Table RuleRow := .empty
  events : Table EventRow := .empty

/-! ### The JSON column -/

def pointJson (p : Point2D) : Json := .obj [("x", .num p.x), ("y", .num p.y)]

def intJson (n : ℤ) : Json := .num n

/-- `RuleStore::SerializeParams` -/
def serializeParams (rule : AnalysisRule) : Json :=
  .obj [
    ("line", .obj [
      ("start", pointJson rule.line.start),
      ("end", pointJson rule.line.stop),
      ("bidirectional", .bool rule.line.bidirectional)]),
    ("region", .obj [("vertices", .arr (rule.region.vertices.map pointJson))]),
    ("target_classes", .arr (rule.targetClasses.map .str)),
    ("schedule", .obj [
      ("always_active", .bool rule.schedule.alwaysActive),
      ("start_time", .str rule.schedule.startTime),
      ("end_time", .str rule.schedule.endTime),
      ("weekdays", .arr (rule.schedule.weekdays.map intJson))])]

/-- Assignments to a rule, until one throws. -/
abbrev Reading := OptionT (StateM AnalysisRule)

/-- One assignment: the converted value, or the exception, which leaves the rule as it is. -/
def assignRead {α : Type} (read : Option α) (set : α → AnalysisRule → AnalysisRule) :
    Reading Unit :=
  match read with
  | some a => modify (set a)
  | none => failure

/-- The two assignments of a point. -/
def readPoint (j : Json) (setX setY : ℚ → AnalysisRule → AnalysisRule) : Reading Unit := do
  assignRead (j.value Json.getRat "x" 0) setX
  assignRead (j.value Json.getRat "y" 0) setY

/-- The block under `if (j.contains(key))`. -/
def readIfPresent (j : Option Json) (read : Json → Reading Unit) : Reading Unit :=
  match j with
  | some j => read j
  | none => pure ()

def readLine (ln : Json) : Reading Unit := do
  readIfPresent (ln.member "start") fun p => readPoint p
    (fun x rule => { rule with line.start.x := x }) (fun y rule => { rule with line.start.y := y })
  readIfPresent (ln.member "end") fun p => readPoint p
    (fun x rule => { rule with line.stop.x := x }) (fun y rule => { rule with line.stop.y := y })
  assignRead (ln.value Json.getBool "bidirectional" true)
    fun b rule => { rule with line.bidirectional := b }

/-- `push_back({v.value("x", 0.0), v.value("y", 0.0)})` -/
def readVertex (v : Json) : Reading Unit :=
  assignRead (do return { x := ← v.value Json.getRat "x" 0, y := ← v.value Json.getRat "y" 0 })
    fun p rule => { rule with region.vertices := rule.region.vertices ++ [p] }

/-- The loop over the vertices. -/
def readVertices : List Json → Reading Unit
  | [] => pure ()
  | v :: vs => do
      readVertex v
      readVertices vs

def readRegion (vertices : Json) : Reading Unit := do
  modify fun rule => { rule with region.vertices := [] }
  readVertices vertices.items

def readTargetClasses (j : Json) : Reading Unit :=
  assignRead (j.getList Json.getStr) fun classes rule => { rule with targetClasses := classes }

def readSchedule (s : Json) : Reading Unit := do
  assignRead (s.value Json.getBool "always_active" true)
    fun b rule => { rule with schedule.alwaysActive := b }
  assignRead (s.value Json.getStr "start_time" "")
    fun t rule => { rule with schedule.startTime := t }
  assignRead (s.value Json.getStr "end_time" "")
    fun t rule => { rule with schedule.endTime := t }
  readIfPresent (s.member "weekdays") fun w => assignRead (w.getList Json.getInt)
    fun days rule => { rule with schedule.weekdays := days }

/-- The body of the try block of `RuleStore::DeserializeParams`. -/
def readParams (j : Json) : Reading Unit := do
  readIfPresent (j.member "line") readLine
  readIfPresent (j.member "region" >>= Json.member "vertices") readRegion
  readIfPresent (j.member "target_classes") readTargetClasses
  readIfPresent (j.member "schedule") readSchedule

/-- `RuleStore::DeserializeParams`, which swallows the exception. -/
def deserializeParams (params : Option Json) (rule : AnalysisRule) : AnalysisRule :=
  match params with
  | some j => ((readParams j).run rule).2
  | none => rule

/-! ### Rows -/

/-- The values bound by an `INSERT` of the rule. -/
def encodeRule (rule : AnalysisRule) (now : ℤ) : RuleRow where
  name := cStr rule.name
  type := rule.type.toString
  channelId := rule.channelId
  enabled := rule.enabled
  minConfidence := rule.minConfidence
  loiterTimeSec := rule.loiterTimeSec
  cooldownSec := rule.cooldownSec
  params := some (serializeParams rule)
  createdAt := now
  updatedAt := now

/-- The rule a `SELECT` makes of a row. -/
def decodeRule (row : ℤ × RuleRow) : AnalysisRule :=
  let rule : AnalysisRule :=
    { id := row.1
      name := row.2.name
      type := parseRuleType row.2.type
      channelId := row.2.channelId
      enabled := row.2.enabled
      minConfidence := row.2.minConfidence
      loiterTimeSec := row.2.loiterTimeSec
      cooldownSec := row.2.cooldownSec }
  { deserializeParams row.2.params rule with
    createdAt := row.2.createdAt
    updatedAt := row.2.updatedAt }

/-- The row of an event. -/
def encodeEvent (event : RuleEvent) : EventRow where
  ruleId := event.ruleId
  ruleName := cStr event.ruleName
  ruleType := event.ruleType.toString
  channelId := event.channelId
  timestampMs := event.timestamp
  severity := event.severity.toString
  trigger := .obj [
    ("x1", .num event.triggerDetection.x1), ("y1", .num event.triggerDetection.y1),
    ("x2", .num event.triggerDetection.x2), ("y2", .num event.triggerDetection.y2),
    ("confidence", .num event.triggerDetection.confidence),
    ("class_id", .num event.triggerDetection.classId),
    ("class_name", .str event.triggerDetection.className)]
  countValue := event.countValue
  dwellTimeSec := event.dwellTimeSec
  direction := cStr event.direction
  metadataJson := cStr event.metadataJson

/-- The assignments from the JSON of a detection. -/
def readTrigger (tj : Json) : Assignments Detection Unit := do
  assign (tj.value Json.getRat "x1" 0) fun x d => { d with x1 := x }
  assign (tj.value Json.getRat "y1" 0) fun y d => { d with y1 := y }
  assign (tj.value Json.getRat "x2" 0) fun x d => { d with x2 := x }
  assign (tj.value Json.getRat "y2" 0) fun y d => { d with y2 := y }
  assign (tj.value Json.getRat "confidence" 0) fun x d => { d with confidence := x }
  assign (tj.value Json.getInt "class_id" 0) fun n d => { d with classId := n }
  assign (tj.value Json.getStr "class_name" "") fun t d => { d with className := t }

/-- What `QueryEvents` makes of the severity column. -/
def parseSeverity (s : String) : RuleEventSeverity :=
  if s = "warning" then .warning else if s = "info" then .info else .alarm

/-- The event a `SELECT` makes of a row; a detection that cannot be read keeps what it was. -/
def decodeEvent (row : EventRow) : RuleEvent where
  ruleId := row.ruleId
  ruleName := row.ruleName
  ruleType := parseRuleType row.ruleType
  channelId := row.channelId
  timestamp := row.timestampMs
  severity := parseSeverity row.severity
  triggerDetection := ((readTrigger row.trigger).run
    { x1 := 0, y1 := 0, x2 := 0, y2 := 0, confidence := 0, classId := 0, className := "" }).2
  countValue := row.countValue
  dwellTimeSec := row.dwellTimeSec
  direction := row.direction
  metadataJson := row.metadataJson

/-- `ORDER BY timestamp_ms DESC` -/
def NewestFirst (a b : ℤ × EventRow) : Prop := a.2.timestampMs > b.2.timestampMs

/-- `LIMIT ?`; a negative limit is none. -/
def limitRows {α : Type} (limit : ℤ) (rows : List α) : List α :=
  if limit < 0 then rows else rows.take limit.toNat

namespace RuleStore

/-! ### Statements -/

/-- `RuleStore::CreateRule` -/
def createRule (store : RuleStore) (rule : AnalysisRule) (now : ℤ) : RuleStore × ℤ :=
  ({ store with rules := store.rules.insert (encodeRule rule now) }, store.rules.seq + 1)

/-- `RuleStore::UpdateRule`; an id without a row is no error. -/
def updateRule (store : RuleStore) (rule : AnalysisRule) (now : ℤ) : RuleStore :=
  { store with rules := store.rules.modify rule.id fun row =>
      { encodeRule rule now with createdAt := row.createdAt } }

/-- `RuleStore::DeleteRule` -/
def deleteRule (store : RuleStore) (ruleId : ℤ) : RuleStore :=
  { store with rules := store.rules.delete ruleId }

/-- `RuleStore::GetRule` -/
def getRule (store : RuleStore) (ruleId : ℤ) : Option AnalysisRule :=
  (store.rules.find ruleId).map fun row => decodeRule (ruleId, row)

/-- `RuleStore::ListRules` -/
def listRules (store : RuleStore) : List AnalysisRule := store.rules.rows.map decodeRule

/-- The condition of the query for the enabled rules of a channel. -/
def enabledOn (channelId : ℤ) (row : ℤ × RuleRow) : Bool :=
  decide (row.2.channelId = channelId) && row.2.enabled

/-- `RuleStore::ListEnabledRulesByChannel` -/
def listEnabledRulesByChannel (store : RuleStore) (channelId : ℤ) : List AnalysisRule :=
  (store.rules.select (enabledOn channelId)).map decodeRule

/-- `RuleStore::LogEvent` -/
def logEvent (store : RuleStore) (event : RuleEvent) : RuleStore :=
  { store with events := store.events.insert (encodeEvent event) }

/-- The condition of the query for the events of a channel between two times. -/
def loggedBetween (channelId startMs endMs : ℤ) (row : ℤ × EventRow) : Bool :=
  row.2.channelId = channelId ∧ startMs ≤ row.2.timestampMs ∧ row.2.timestampMs ≤ endMs

/-- `RuleStore::QueryEvents`; the order of events of one time is up to the database. -/
def queryEvents (srt : Sorter NewestFirst) (store : RuleStore)
    (channelId startMs endMs limit : ℤ) : List RuleEvent :=
  (limitRows limit (srt.sort (store.events.select (loggedBetween channelId startMs endMs)))).map
    fun row => decodeEvent row.2

end RuleStore

/-! ### What is read back -/

theorem parseRuleType_toString (type : RuleType) : parseRuleType type.toString = type := by
  cases type <;> rfl

theorem parseSeverity_toString (severity : RuleEventSeverity) :
    parseSeverity severity.toString = severity := by
  cases severity <;> rfl

/-- **A stored event is read back**, with its texts as C strings. -/
theorem decodeEvent_encodeEvent (event : RuleEvent) :
    decodeEvent (encodeEvent event) =
      { event with
        ruleName := cStr event.ruleName
        direction := cStr event.direction
        metadataJson := cStr event.metadataJson } := by
  have hclass : (encodeEvent event).trigger.value Json.getInt "class_id" 0 =
      some event.triggerDetection.classId := Json.getInt_intCast _
  have htrigger : ((readTrigger (encodeEvent event).trigger).run
      { x1 := 0, y1 := 0, x2 := 0, y2 := 0, confidence := 0, classId := 0, className := "" }).2 =
        event.triggerDetection := by
    simp only [readTrigger, hclass]
    rfl
  simp only [decodeEvent, htrigger]
  simp only [encodeEvent, parseRuleType_toString, parseSeverity_toString]

section Reading

variable {rule rule₁ : AnalysisRule}

/-- A reading that succeeds goes on with the rule it leaves. -/
theorem reading_bind {x y : Reading Unit} (hx : x.run rule = (some (), rule₁)) :
    (do x; y : Reading Unit).run rule = y.run rule₁ := by
  simp only [OptionT.run, bind, OptionT.bind, OptionT.mk, StateT.bind] at hx ⊢
  rw [hx]

theorem reading_then {x y : Reading Unit} {result : Option Unit × AnalysisRule}
    (hx : x.run rule = (some (), rule₁)) (hy : y.run rule₁ = result) :
    (do x; y : Reading Unit).run rule = result :=
  (reading_bind hx).trans hy

theorem readVertices_run (vs : List Point2D) (rule : AnalysisRule) :
    (readVertices (vs.map pointJson)).run rule =
      (some (), { rule with region.vertices := rule.region.vertices ++ vs }) := by
  induction vs generalizing rule with
  | nil => rw [List.append_nil]; rfl
  | cons v vs ih =>
      have hv : (readVertex (pointJson v)).run rule =
          (some (), { rule with region.vertices := rule.region.vertices ++ [v] }) := rfl
      rw [List.map_cons, readVertices, reading_bind hv, ih]
      simp

theorem readTargetClasses_run (classes : List String) :
    (readTargetClasses (.arr (classes.map .str))).run rule =
      (some (), { rule with targetClasses := classes }) := by
  have hclasses : Json.getList Json.getStr (.arr (classes.map .str)) = some classes :=
    @Json.getList_map _ Json.getStr Json.str (fun _ => rfl) _
  rw [readTargetClasses, hclasses]
  rfl

theorem readSchedule_run (schedule : RuleSchedule) :
    (readSchedule (.obj [
      ("always_active", .bool schedule.alwaysActive),
      ("start_time", .str schedule.startTime),
      ("end_time", .str schedule.endTime),
      ("weekdays", .arr (schedule.weekdays.map intJson))])).run rule =
      (some (), { rule with schedule := schedule }) := by
  have hdays : Json.getList Json.getInt (.arr (schedule.weekdays.map intJson)) =
      some schedule.weekdays := Json.getList_map Json.getInt_intCast _
  have hactive : (assignRead (some schedule.alwaysActive)
      fun b rule => { rule with schedule.alwaysActive := b }).run rule =
        (some (), { rule with schedule.alwaysActive := schedule.alwaysActive }) := rfl
  rw [readSchedule]
  refine (reading_bind hactive).trans ((reading_bind rfl).trans ((reading_bind rfl).trans ?_))
  show (assignRead (Json.getList Json.getInt (.arr (schedule.weekdays.map intJson))) _).run _ = _
  rw [hdays]
  rfl

/-- **The JSON column**: what was serialized is what is read back, whatever the rule held. -/
theorem deserializeParams_serializeParams (rule base : AnalysisRule) :
    deserializeParams (some (serializeParams rule)) base =
      { base with
        line := rule.line
        region := rule.region
        targetClasses := rule.targetClasses
        schedule := rule.schedule } := by
  have hline : (readLine (.obj [
      ("start", pointJson rule.line.start),
      ("end", pointJson rule.line.stop),
      ("bidirectional", .bool rule.line.bidirectional)])).run base =
        (some (), { base with line := rule.line }) := rfl
  have hregion : (readRegion (.arr (rule.region.vertices.map pointJson))).run
      { base with line := rule.line } =
        (some (), { base with line := rule.line, region := rule.region }) := by
    rw [readRegion]
    exact (reading_bind rfl).trans (readVertices_run _ _)
  have hrun : (readParams (serializeParams rule)).run base =
      (some (), { base with
        line := rule.line
        region := rule.region
        targetClasses := rule.targetClasses
        schedule := rule.schedule }) := by
    rw [readParams]
    refine (reading_bind hline).trans ((reading_bind hregion).trans ?_)
    exact (reading_bind (readTargetClasses_run rule.targetClasses)).trans
      (readSchedule_run rule.schedule)
  show ((readParams (serializeParams rule)).run base).2 = _
  rw [hrun]

end Reading

/-- **A stored rule is read back**, with its row's id and timestamps and its name as a C
string. -/
theorem decodeRule_encodeRule (rule : AnalysisRule) (id now created : ℤ) :
    decodeRule (id, { encodeRule rule now with createdAt := created }) =
      { rule with id := id, name := cStr rule.name, createdAt := created, updatedAt := now } := by
  simp only [decodeRule, encodeRule, deserializeParams_serializeParams, parseRuleType_toString]

/-! ### What a read leaves alone -/

/-- After one reading and another, the rule is that after the first, where it throws, or after
both. -/
theorem reading_bind_cases (x y : Reading Unit) (rule : AnalysisRule) :
    ((do x; y : Reading Unit).run rule).2 = (x.run rule).2 ∨
      ((do x; y : Reading Unit).run rule).2 = (y.run (x.run rule).2).2 := by
  cases hrun : x.run rule with
  | mk done rule₁ =>
      cases done with
      | some u => exact .inr (congrArg Prod.snd (reading_bind hrun))
      | none =>
          left
          simp only [OptionT.run, Bind.bind, OptionT.bind, OptionT.mk, StateT.bind] at hrun ⊢
          rw [hrun]
          rfl

/-- The rules differ in nothing but the four fields of the JSON column. -/
def ParamsOf (base rule : AnalysisRule) : Prop :=
  rule = { base with
    line := rule.line
    region := rule.region
    targetClasses := rule.targetClasses
    schedule := rule.schedule }

theorem ParamsOf.trans {a b c : AnalysisRule} (hab : ParamsOf a b) (hbc : ParamsOf b c) :
    ParamsOf a c := by
  simp only [ParamsOf] at *
  rw [hab] at hbc
  exact hbc

/-- The reading writes nothing but the four fields, whether it throws or not. -/
def WritesParams (x : Reading Unit) : Prop := ∀ rule, ParamsOf rule (x.run rule).2

namespace WritesParams

theorem bind {x y : Reading Unit} (hx : WritesParams x) (hy : WritesParams y) :
    WritesParams (do x; y) := by
  intro rule
  rcases reading_bind_cases x y rule with hfirst | hboth
  · exact hfirst ▸ hx rule
  · exact hboth ▸ (hx rule).trans (hy _)

theorem assignRead {α : Type} {read : Option α} {set : α → AnalysisRule → AnalysisRule}
    (h : ∀ a rule, ParamsOf rule (set a rule)) : WritesParams (assignRead read set) := by
  intro rule
  cases read with
  | some a => exact h a rule
  | none => exact rfl

theorem readIfPresent {j : Option Json} {read : Json → Reading Unit}
    (h : ∀ j, WritesParams (read j)) : WritesParams (readIfPresent j read) := by
  cases j with
  | some j => exact h j
  | none => exact fun _ => rfl

theorem readPoint (j : Json) {setX setY : ℚ → AnalysisRule → AnalysisRule}
    (hx : ∀ x rule, ParamsOf rule (setX x rule)) (hy : ∀ y rule, ParamsOf rule (setY y rule)) :
    WritesParams (readPoint j setX setY) :=
  (assignRead hx).bind (assignRead hy)

theorem readLine (ln : Json) : WritesParams (readLine ln) := by
  refine (readIfPresent fun p => readPoint p ?_ ?_).bind
    ((readIfPresent fun p => readPoint p ?_ ?_).bind (assignRead ?_)) <;>
  exact fun _ _ => rfl

theorem readVertices : ∀ vs, WritesParams (readVertices vs)
  | [] => fun _ => rfl
  | v :: vs => by
      have hv : WritesParams (readVertex v) := assignRead fun _ _ => by exact rfl
      exact hv.bind (readVertices vs)

theorem readRegion (vertices : Json) : WritesParams (readRegion vertices) := by
  have hclear : WritesParams (modify fun rule => { rule with region.vertices := [] }) :=
    fun _ => rfl
  exact hclear.bind (readVertices vertices.items)

theorem readTargetClasses (j : Json) : WritesParams (readTargetClasses j) :=
  assignRead fun _ _ => by exact rfl

theorem readSchedule (s : Json) : WritesParams (readSchedule s) := by
  refine (assignRead ?_).bind ((assignRead ?_).bind ((assignRead ?_).bind
    (readIfPresent fun w => assignRead ?_))) <;>
  exact fun _ _ => rfl

theorem readParams (j : Json) : WritesParams (readParams j) :=
  (readIfPresent readLine).bind ((readIfPresent readRegion).bind
    ((readIfPresent readTargetClasses).bind (readIfPresent readSchedule)))

end WritesParams

theorem deserializeParams_paramsOf (params : Option Json) (rule : AnalysisRule) :
    ParamsOf rule (deserializeParams params rule) := by
  cases params with
  | some j => exact WritesParams.readParams j rule
  | none => exact rfl

section Columns

variable (row : ℤ × RuleRow)

/-- The columns a query selects by are those of the rule it gives. -/
theorem decodeRule_columns : (decodeRule row).id = row.1 ∧
    (decodeRule row).channelId = row.2.channelId ∧ (decodeRule row).enabled = row.2.enabled := by
  set base : AnalysisRule :=
    { id := row.1
      name := row.2.name
      type := parseRuleType row.2.type
      channelId := row.2.channelId
      enabled := row.2.enabled
      minConfidence := row.2.minConfidence
      loiterTimeSec := row.2.loiterTimeSec
      cooldownSec := row.2.cooldownSec } with hbase
  have h := deserializeParams_paramsOf row.2.params base
  exact ⟨congrArg AnalysisRule.id h, congrArg AnalysisRule.channelId h,
    congrArg AnalysisRule.enabled h⟩

@[simp] theorem decodeRule_id : (decodeRule row).id = row.1 := (decodeRule_columns row).1

@[simp] theorem decodeRule_channelId : (decodeRule row).channelId = row.2.channelId :=
  (decodeRule_columns row).2.1

@[simp] theorem decodeRule_enabled : (decodeRule row).enabled = row.2.enabled :=
  (decodeRule_columns row).2.2

end Columns

end LoongNvr.Rules
