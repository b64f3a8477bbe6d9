import LoongNvr.Rules.RuleEngine

/-!
# Network — the handlers of the analysis rules

`HandleCreateRule`, `HandleGetRule` and `HandleUpdateRule` over the rule engine: the body is read
into a rule field by field, up to the first value of the wrong kind, and the rule is written only
when all of it was read.

The caller is authorised, the engine is set, a body is what the parser makes of its bytes (`none`
where it refuses them), and the id of the path is a number.

* `handleUpdateRule_edit`: an answer sent back with changes is accepted, and everything of it is
  written but the channel and the schedule.
* `readsBack_iff`: the changes are read back exactly where the channel and the schedule are not
  among them, the name has no NUL and the times fit an `int`.
-/

namespace LoongNvr.Network
open LoongNvr.Core LoongNvr.Rules Support

/-- The status and the body of an answer. -/
structure Response where
  status : ℕ
  body : Json

/-- An answer that gives a reason. -/
def errorResponse (status : ℕ) (error : String) : Response :=
  ⟨status, .obj [("error", .str error)]⟩

/-- The answer to a request whose reading throws; what the exception says is left out. -/
def refusal : Response := errorResponse 400 ""

/-! ### Reading a rule -/

/-- The object of a rule in an answer. -/
def ruleJson (rule : AnalysisRule) : Json :=
  .obj [
    ("id", intJson rule.id),
    ("name", .str rule.name),
    ("type", .str rule.type.toString),
    ("channel_id", intJson rule.channelId),
    ("enabled", .bool rule.enabled),
    ("min_confidence", .num rule.minConfidence),
    ("cooldown_sec", intJson rule.cooldownSec),
    ("loiter_time_sec", intJson rule.loiterTimeSec),
    ("created_at", intJson rule.createdAt),
    ("updated_at", intJson rule.updatedAt),
    ("target_classes", .arr (rule.targetClasses.map .str)),
    ("line", .obj [
      ("start", pointJson rule.line.start),
      ("end", pointJson rule.line.stop),
      ("bidirectional", .bool rule.line.bidirectional)]),
    ("region", .obj [("vertices", .arr (rule.region.vertices.map pointJson))]),
    ("schedule", .obj [
      ("always_active", .bool rule.schedule.alwaysActive),
      ("start_time", .str rule.schedule.startTime),
      ("end_time", .str rule.schedule.endTime),
      ("weekdays", .arr (rule.schedule.weekdays.map intJson))])]

/-- `HandleGetRule` -/
def handleGetRule (engine : RuleEngine) (ruleId : ℤ) : Response :=
  match engine.store.getRule ruleId with
  | none => errorResponse 404 "Rule not found"
  | some rule => ⟨200, ruleJson rule⟩

/-! ### Creating a rule -/

/-- The rule a body describes, or `none` where a value throws. -/
def readNewRule (body : Json) : Option AnalysisRule := do
  let rule : AnalysisRule := {
    name := ← body.value Json.getStr "name" ""
    type := parseRuleType (← body.value Json.getStr "type" "cross_line")
    channelId := ← body.value Json.getInt32 "channel_id" (-1)
    enabled := ← body.value Json.getBool "enabled" true
    minConfidence := ← body.value Json.getFloat "min_confidence" (1 / 2)
    cooldownSec := ← body.value Json.getInt32 "cooldown_sec" 60
    loiterTimeSec := ← body.value Json.getInt32 "loiter_time_sec" 30 }
  -- the line, the region, the classes and the schedule are read as from the store's JSON column
  match (readParams body).run rule with
  | (some (), rule) => some rule
  | (none, _) => none

/-- `HandleCreateRule` -/
def handleCreateRule (engine : RuleEngine) (body : Option Json) (now : ℤ) :
    RuleEngine × Response :=
  match body >>= readNewRule with
  | none => (engine, refusal)
  | some rule =>
      if rule.name.isEmpty ∨ rule.channelId < 0 then
        (engine, errorResponse 400 "name and channel_id are required")
      else
        let (engine, newId) := engine.createRule rule now
        if newId > 0 then
          (engine, ⟨201, .obj [("id", intJson newId), ("message", .str "Rule created")]⟩)
        else (engine, errorResponse 500 "Failed to create rule")

/-! ### Updating a rule -/

/-- The block under `if (body.contains("line"))`. -/
def updateLine (ln : Json) : Reading Unit := do
  readIfPresent (ln.member "start") fun p => readPoint p
    (fun x rule => { rule with line.start.x := x }) (fun y rule => { rule with line.start.y := y })
  readIfPresent (ln.member "end") fun p => readPoint p
    (fun x rule => { rule with line.stop.x := x }) (fun y rule => { rule with line.stop.y := y })
  readIfPresent (ln.member "bidirectional") fun b => assignRead b.getBool
    fun b rule => { rule with line.bidirectional := b }

/-- The assignments of `HandleUpdateRule`. -/
def readRuleUpdate (body : Json) : Reading Unit := do
  readIfPresent (body.member "name") fun j => assignRead j.getStr
    fun name rule => { rule with name := name }
  readIfPresent (body.member "type") fun j => assignRead j.getStr
    fun type rule => { rule with type := parseRuleType type }
  readIfPresent (body.member "enabled") fun j => assignRead j.getBool
    fun b rule => { rule with enabled := b }
  readIfPresent (body.member "min_confidence") fun j => assignRead j.getFloat
    fun x rule => { rule with minConfidence := x }
  readIfPresent (body.member "cooldown_sec") fun j => assignRead j.getInt32
    fun n rule => { rule with cooldownSec := n }
  readIfPresent (body.member "loiter_time_sec") fun j => assignRead j.getInt32
    fun n rule => { rule with loiterTimeSec := n }
  readIfPresent (body.member "line") updateLine
  readIfPresent (body.member "region" >>= Json.member "vertices") readRegion
  readIfPresent (body.member "target_classes") readTargetClasses

/-- `HandleUpdateRule` -/
def handleUpdateRule (engine : RuleEngine) (ruleId : ℤ) (body : Option Json) (now : ℤ) :
    RuleEngine × Response :=
  match engine.store.getRule ruleId with
  | none => (engine, errorResponse 404 "Rule not found")
  | some existing =>
      match body with
      | none => (engine, refusal)
      | some body =>
          match (readRuleUpdate body).run existing with
          | (none, _) => (engine, refusal)
          | (some (), rule) =>
              match engine.updateRule rule now with
              | (engine, true) => (engine, ⟨200, .obj [("message", .str "Rule updated")]⟩)
              | (engine, false) => (engine, errorResponse 500 "Failed to update rule")

/-! ### What an edited answer writes -/

/-- The rule with the fields of another that an update writes. -/
def written (rule edited : AnalysisRule) : AnalysisRule :=
  { rule with
    name := edited.name
    type := edited.type
    enabled := edited.enabled
    minConfidence := edited.minConfidence
    cooldownSec := toInt32 edited.cooldownSec
    loiterTimeSec := toInt32 edited.loiterTimeSec
    line := edited.line
    region := edited.region
    targetClasses := edited.targetClasses }

theorem updateLine_run (ln : VirtualLine) (rule : AnalysisRule) :
    (updateLine (.obj [
      ("start", pointJson ln.start),
      ("end", pointJson ln.stop),
      ("bidirectional", .bool ln.bidirectional)])).run rule =
      (some (), { rule with line := ln }) := rfl

theorem readRegion_run (region : Region) (rule : AnalysisRule) :
    (readRegion (.arr (region.vertices.map pointJson))).run rule =
      (some (), { rule with region := region }) := by
  rw [readRegion]
  exact (reading_bind rfl).trans (readVertices_run _ _)

theorem readInt32_run {j : Option Json} {n : ℤ} (hj : j = some (intJson n))
    (set : ℤ → AnalysisRule → AnalysisRule) (rule : AnalysisRule) :
    (readIfPresent j fun j => assignRead j.getInt32 set).run rule =
      (some (), set (toInt32 n) rule) := by
  subst hj
  rw [readIfPresent, intJson, Json.getInt32_intCast]
  rfl

/-- **Everything of an edited answer is taken over** but its channel and its schedule. -/
theorem readRuleUpdate_ruleJson (rule edited : AnalysisRule) :
    (readRuleUpdate (ruleJson edited)).run rule = (some (), written rule edited) := by
  rw [readRuleUpdate]
  -- name, type, enabled and the least confidence
  refine reading_then rfl (reading_then rfl (reading_then rfl (reading_then rfl ?_)))
  refine reading_then (readInt32_run (n := edited.cooldownSec) rfl _ _)
    (reading_then (readInt32_run (n := edited.loiterTimeSec) rfl _ _) ?_)
  refine reading_then (updateLine_run edited.line _)
    (reading_then (readRegion_run edited.region _) ?_)
  refine (readTargetClasses_run edited.targetClasses).trans ?_
  simp only [parseRuleType_toString, written]

/-! ### Channels -/

/-- The channel of a rule that a request creates: an `int` that is not negative. -/
def IsChannel (channelId : ℤ) : Prop := 0 ≤ channelId ∧ channelId < 2147483648

/-- A value that is read into an `int` is one. -/
theorem value_getInt32_lt {body : Json} {key : String} {n default : ℤ}
    (hdefault : default < 2147483648) (h : body.value Json.getInt32 key default = some n) :
    n < 2147483648 := by
  cases body with
  | obj fields =>
      rw [Json.value] at h
      split at h
      · obtain ⟨m, -, rfl⟩ := Option.map_eq_some_iff.mp h
        exact m.2.2
      · exact Option.some.inj h ▸ hdefault
  | _ => cases h

/-- The rules have one id and one channel. -/
def SameChannel (a b : AnalysisRule) : Prop := b.id = a.id ∧ b.channelId = a.channelId

/-- The reading leaves the id and the channel alone, whether it throws or not. -/
def KeepsChannel (x : Reading Unit) : Prop := ∀ rule, SameChannel rule (x.run rule).2

theorem KeepsChannel.bind {x y : Reading Unit} (hx : KeepsChannel x) (hy : KeepsChannel y) :
    KeepsChannel (do x; y) := by
  intro rule
  rcases reading_bind_cases x y rule with hfirst | hboth
  · exact hfirst ▸ hx rule
  · rw [hboth]
    exact ⟨(hy _).1.trans (hx rule).1, (hy _).2.trans (hx rule).2⟩

theorem KeepsChannel.assignRead {α : Type} {read : Option α}
    {set : α → AnalysisRule → AnalysisRule} (h : ∀ a rule, SameChannel rule (set a rule)) :
    KeepsChannel (assignRead read set) := by
  intro rule
  cases read with
  | some a => exact h a rule
  | none => exact ⟨rfl, rfl⟩

theorem KeepsChannel.readIfPresent {j : Option Json} {read : Json → Reading Unit}
    (h : ∀ j, KeepsChannel (read j)) : KeepsChannel (readIfPresent j read) := by
  cases j with
  | some j => exact h j
  | none => exact fun _ => ⟨rfl, rfl⟩

/-- What writes only the line, the region, the classes and the schedule. -/
theorem KeepsChannel.of_writesParams {x : Reading Unit} (h : WritesParams x) : KeepsChannel x :=
  fun rule => ⟨(congrArg AnalysisRule.id (h rule)).trans rfl,
    (congrArg AnalysisRule.channelId (h rule)).trans rfl⟩

/-- A rule that is read has an `int` for its channel. -/
theorem readNewRule_channelId {body : Json} {rule : AnalysisRule}
    (h : readNewRule body = some rule) : rule.channelId < 2147483648 := by
  simp only [readNewRule, Option.bind_eq_bind, Option.bind_eq_some_iff] at h
  obtain ⟨_, -, _, -, channelId, hchannel, _, -, _, -, _, -, _, -, h⟩ := h
  split at h
  · next hread =>
      obtain rfl := Option.some.inj h
      have hkept := KeepsChannel.of_writesParams (WritesParams.readParams body)
      have hsame := (congrArg (·.2.channelId) hread).symm.trans (hkept _).2
      exact hsame ▸ value_getInt32_lt (by decide) hchannel
  · cases h

theorem writesParams_updateLine (ln : Json) : WritesParams (updateLine ln) := by
  refine (WritesParams.readIfPresent fun p => WritesParams.readPoint p ?_ ?_).bind
    ((WritesParams.readIfPresent fun p => WritesParams.readPoint p ?_ ?_).bind
      (WritesParams.readIfPresent fun b => WritesParams.assignRead ?_)) <;>
  exact fun _ _ => rfl

/-- **An update never changes the channel of a rule.** -/
theorem keepsChannel_readRuleUpdate (body : Json) : KeepsChannel (readRuleUpdate body) := by
  have hset {α : Type} (get : Json → Option α) {set : α → AnalysisRule → AnalysisRule}
      (h : ∀ a rule, SameChannel rule (set a rule)) (j : Option Json) :
      KeepsChannel (readIfPresent j fun j => assignRead (get j) set) :=
    KeepsChannel.readIfPresent fun j => KeepsChannel.assignRead h
  refine (hset Json.getStr ?_ _).bind ((hset Json.getStr ?_ _).bind ((hset Json.getBool ?_ _).bind
    ((hset Json.getFloat ?_ _).bind ((hset Json.getInt32 ?_ _).bind ((hset Json.getInt32 ?_ _).bind
      ((KeepsChannel.readIfPresent fun j => .of_writesParams (writesParams_updateLine j)).bind
        ((KeepsChannel.readIfPresent fun j => .of_writesParams (WritesParams.readRegion j)).bind
          (KeepsChannel.readIfPresent fun j =>
            .of_writesParams (WritesParams.readTargetClasses j)))))))))
  all_goals exact fun _ _ => ⟨rfl, rfl⟩

/-! ### What is read back -/

theorem pointJson_injective : Function.Injective pointJson := by
  rintro ⟨x, y⟩ ⟨x', y'⟩ h
  simp only [pointJson, Json.obj.injEq, List.cons.injEq, Prod.mk.injEq, Json.num.injEq] at h
  rw [h.1.2, h.2.1.2]

theorem intJson_injective : Function.Injective intJson := fun _ _ h =>
  Int.cast_injective (Json.num.inj h)

theorem toString_injective : Function.Injective RuleType.toString := fun a b h => by
  rw [← parseRuleType_toString a, h, parseRuleType_toString]

theorem strings_injective : Function.Injective (List.map Json.str) :=
  List.map_injective_iff.mpr fun _ _ => Json.str.inj

/-- **An answer tells every field** of the rule. -/
theorem ruleJson_injective : Function.Injective ruleJson := by
  rintro ⟨_, _, _, _, _, ⟨_, _, _⟩, ⟨_⟩, _, _, _, _, ⟨_, _, _, _⟩, _, _⟩
    ⟨_, _, _, _, _, ⟨_, _, _⟩, ⟨_⟩, _, _, _, _, ⟨_, _, _, _⟩, _, _⟩ h
  simp only [ruleJson, Json.obj.injEq, List.cons.injEq, Prod.mk.injEq, Json.str.injEq,
    Json.bool.injEq, Json.num.injEq, Json.arr.injEq, intJson_injective.eq_iff,
    pointJson_injective.eq_iff, toString_injective.eq_iff, strings_injective.eq_iff,
    (List.map_injective_iff.mpr pointJson_injective).eq_iff,
    (List.map_injective_iff.mpr intJson_injective).eq_iff, true_and, and_true] at h
  simp only [h]

/-- The rule is read back with the time of the update, and its name cut at its first NUL. -/
theorem getRule_updateRule {store : RuleStore} {rule : AnalysisRule} {ruleId : ℤ}
    (h : store.getRule ruleId = some rule) (new : AnalysisRule) (hid : new.id = ruleId)
    (hcreated : new.createdAt = rule.createdAt) (now : ℤ) :
    (store.updateRule new now).getRule ruleId =
      some { new with name := cStr new.name, updatedAt := now } := by
  obtain ⟨row, hfind, rfl⟩ := Option.map_eq_some_iff.mp h
  subst hid
  have hnew := store.rules.find_modify hfind fun row =>
    { encodeRule new now with createdAt := row.createdAt }
  rw [RuleStore.getRule, RuleStore.updateRule, hnew, Option.map_some, decodeRule_encodeRule,
    hcreated]
  rfl

/-! ### Settings read back as written -/

/-- A rule whose answer a client may send back for another's: any of its fields changed but the id
and the times it was made and last updated. -/
def EditOf (rule edited : AnalysisRule) : Prop :=
  edited.id = rule.id ∧ edited.createdAt = rule.createdAt ∧ edited.updatedAt = rule.updatedAt

/-- Once the edited answer is accepted, the next answer has exactly its fields, the time of the
update apart. -/
def ReadsBack (engine : RuleEngine) (ruleId : ℤ) (edited : AnalysisRule) (now : ℤ) : Prop :=
  (handleUpdateRule engine ruleId (some (ruleJson edited)) now).2.status = 200 →
    ∃ updatedAt, handleGetRule
        (handleUpdateRule engine ruleId (some (ruleJson edited)) now).1 ruleId =
      ⟨200, ruleJson { edited with updatedAt := updatedAt }⟩

theorem handleUpdateRule_edit {engine : RuleEngine} {ruleId : ℤ} {rule : AnalysisRule}
    (h : engine.store.getRule ruleId = some rule) (edited : AnalysisRule) (now : ℤ) :
    handleUpdateRule engine ruleId (some (ruleJson edited)) now =
      ((engine.updateRule (written rule edited) now).1,
        ⟨200, .obj [("message", .str "Rule updated")]⟩) := by
  simp only [handleUpdateRule, h, readRuleUpdate_ruleJson]
  rfl

/-- The answer after the update. -/
theorem handleGetRule_edit {engine : RuleEngine} {ruleId : ℤ} {rule : AnalysisRule}
    (h : engine.store.getRule ruleId = some rule) (edited : AnalysisRule) (now : ℤ) :
    handleGetRule (handleUpdateRule engine ruleId (some (ruleJson edited)) now).1 ruleId =
      ⟨200, ruleJson { written rule edited with
        name := cStr edited.name
        updatedAt := now }⟩ := by
  have hid : (written rule edited).id = ruleId := by
    obtain ⟨row, -, rfl⟩ := Option.map_eq_some_iff.mp h
    exact decodeRule_id _
  have hread := getRule_updateRule h (written rule edited) hid rfl now
  rw [handleUpdateRule_edit h, handleGetRule]
  show (match (engine.store.updateRule (written rule edited) now).getRule ruleId with
    | none => _
    | some rule => _) = _
  rw [hread]
  rfl

/-- An accepted answer reads back when the rule it writes is the one it tells of. -/
theorem readsBack_iff_written {engine : RuleEngine} {ruleId : ℤ} {rule : AnalysisRule}
    (h : engine.store.getRule ruleId = some rule) (edited : AnalysisRule) (now : ℤ) :
    ReadsBack engine ruleId edited now ↔
      { written rule edited with name := cStr edited.name, updatedAt := now } =
        { edited with updatedAt := now } := by
  have hstatus : (handleUpdateRule engine ruleId (some (ruleJson edited)) now).2.status = 200 := by
    rw [handleUpdateRule_edit h]
  rw [ReadsBack, handleGetRule_edit h, imp_iff_right hstatus]
  constructor
  · rintro ⟨updatedAt, hread⟩
    have hsame := ruleJson_injective (Response.mk.inj hread).2
    obtain rfl : now = updatedAt := congrArg AnalysisRule.updatedAt hsame
    exact hsame
  · intro hsame
    exact ⟨now, by rw [hsame]⟩

/-- **Settings read back as written** exactly where the channel and the schedule are not among
the changes, the name has no NUL and the times fit an `int`. -/
theorem readsBack_iff {engine : RuleEngine} {ruleId : ℤ} {rule edited : AnalysisRule} (now : ℤ)
    (hrule : engine.store.getRule ruleId = some rule) (hedit : EditOf rule edited) :
    ReadsBack engine ruleId edited now ↔
      edited.channelId = rule.channelId ∧ edited.schedule = rule.schedule ∧
      '\x00' ∉ edited.name.toList ∧
      (-2147483648 ≤ edited.cooldownSec ∧ edited.cooldownSec < 2147483648) ∧
      (-2147483648 ≤ edited.loiterTimeSec ∧ edited.loiterTimeSec < 2147483648) := by
  obtain ⟨hid, hcreated, -⟩ := hedit
  rw [readsBack_iff_written hrule, ← cStr_eq_self_iff, ← bmod_int32_eq_self_iff,
    ← bmod_int32_eq_self_iff]
  constructor
  · intro hsame
    exact ⟨(congrArg AnalysisRule.channelId hsame).symm,
      (congrArg AnalysisRule.schedule hsame).symm, congrArg AnalysisRule.name hsame,
      congrArg AnalysisRule.cooldownSec hsame, congrArg AnalysisRule.loiterTimeSec hsame⟩
  · rintro ⟨hchannel, hschedule, hname, hcooldown, hloiter⟩
    simp only [written, toInt32, hcooldown, hloiter, hname, ← hchannel, ← hschedule, ← hid,
      ← hcreated]

/-- A stored rule of channel 1. -/
def entranceRule : AnalysisRule :=
  { id := 1, name := "entrance", channelId := 1, createdAt := 1000, updatedAt := 1000 }

/-- An engine whose store has the rule. -/
def entranceEngine : RuleEngine := ((({} : RuleEngine).createRule entranceRule 1000).1)

theorem getRule_entranceEngine : entranceEngine.store.getRule 1 = some entranceRule := by
  have hread := decodeRule_encodeRule entranceRule 1 1000 1000
  rw [(cStr_eq_self_iff entranceRule.name).mpr (by decide)] at hread
  exact congrArg some hread

/-- The rule with another least confidence reads back. -/
theorem readsBack_confidence :
    ReadsBack entranceEngine 1 { entranceRule with minConfidence := 3 / 4 } 2000 := by
  have hedit : EditOf entranceRule { entranceRule with minConfidence := 3 / 4 } := ⟨rfl, rfl, rfl⟩
  rw [readsBack_iff 2000 getRule_entranceEngine hedit]
  exact ⟨rfl, rfl, by decide, by decide, by decide⟩

/-- The rule moved to channel 2: the update answers 200, and the rule stays on channel 1. -/
theorem readsBack_refuted :
    ¬ ReadsBack entranceEngine 1 { entranceRule with channelId := 2 } 2000 := by
  rw [readsBack_iff_written getRule_entranceEngine]
  intro hsame
  have hchannel : (1 : ℤ) = 2 := congrArg AnalysisRule.channelId hsame
  exact absurd hchannel (by decide)

end LoongNvr.Network
