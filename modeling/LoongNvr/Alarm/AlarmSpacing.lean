import LoongNvr.Alarm.AlarmManager
import Mathlib.Algebra.Order.Ring.Int
import Mathlib.Algebra.Order.Group.Abs
import Mathlib.Data.List.Pairwise

/-!
# Alarm — AlarmSpacing

Alarms of one rule are at least its cooldown apart as long as no call passes the cooldown check of
a rule while another has passed it and not yet noted the trigger.

* `Spaced`: the records of each rule are its cooldown apart.
* `Apart`: the condition on a turn.
* `Orderly`: the invariant: of each rule one call at most is between its check and its note, and
  what has been noted is the newest record but for that call's.
* `spaced_of_apart`: the runs.
-/

namespace LoongNvr.Alarm
open Support

/-- What a call has passed the check of and not noted yet. -/
def Pending.rule? : Pending → Option ℤ
  | .check _ => none
  | .stamp rule _ => some rule.1
  | .insert record _ | .note record _ => some record.ruleId

/-- What a call is about to check. -/
def Pending.next? : Pending → Option ℤ
  | .check (rule :: _) => some rule.1
  | _ => none

/-- `u` is no earlier than `t`, and later by the rule's cooldown at least. -/
def Since (rules : Table AlarmRule) (ruleId t u : ℤ) : Prop :=
  t ≤ u ∧ ∀ rule, rules.find ruleId = some rule → t + rule.cooldownSec * 1000 ≤ u

/-- The times at which a rule was triggered, in the order of the records. -/
def AlarmManager.triggers (ruleId : ℤ) (m : AlarmManager) : List ℤ :=
  (m.history.select fun row => row.2.ruleId = ruleId).map (·.2.triggeredAt)

namespace Alarms

/-- Any two records of a rule are at least its cooldown apart. -/
def Spaced (s : Alarms) : Prop :=
  ∀ a ∈ s.manager.history.rows, ∀ b ∈ s.manager.history.rows, a ≠ b → a.2.ruleId = b.2.ruleId →
    ∀ rule, s.manager.rules.find a.2.ruleId = some rule →
      rule.cooldownSec * 1000 ≤ |a.2.triggeredAt - b.2.triggeredAt|

/-- No call is between its check of the rule and its note. -/
def Free (s : Alarms) (ruleId : ℤ) : Prop := ∀ d ∈ s.calls, d.pending.rule? ≠ some ruleId

instance (s : Alarms) (ruleId : ℤ) : Decidable (s.Free ruleId) :=
  inferInstanceAs (Decidable (∀ d ∈ s.calls, _))

/-- A call passes the check of a rule only while no other is between its check of the rule and its
note. -/
def Apart (s : Alarms) : AlarmStep → Prop
  | .turn k _ => ∀ d ∈ s.calls[k]?, ∀ ruleId ∈ d.pending.next?,
      s.manager.checkCooldown s.clock ruleId → s.Free ruleId
  | .begin .. | .tick _ => True

instance (s : Alarms) : ∀ a, Decidable (s.Apart a)
  | .turn .. => inferInstanceAs (Decidable (∀ d ∈ s.calls[_]?, _))
  | .begin .. | .tick _ => inferInstanceAs (Decidable True)

/-! ### The invariant -/

/-- Where a call stands with the rule it has passed the check of. -/
def Standing (s : Alarms) : Pending → Prop
  | .check _ => True
  | .stamp rule _ => ∀ t ∈ s.manager.triggers rule.1, Since s.manager.rules rule.1 t s.clock
  | .insert record _ => record.triggeredAt ≤ s.clock ∧
      ∀ t ∈ s.manager.triggers record.ruleId,
        Since s.manager.rules record.ruleId t record.triggeredAt
  | .note record _ => record.triggeredAt ≤ s.clock ∧
      ∀ t ∈ s.manager.triggers record.ruleId, t ≤ record.triggeredAt

/-- What has been recorded has been noted, unless a call is about to. -/
def Noted (s : Alarms) (ruleId : ℤ) : Prop :=
  (∃ d ∈ s.calls, ∃ record rules, d.pending = .note record rules ∧ record.ruleId = ruleId) ∨
  ∀ t ∈ s.manager.triggers ruleId, ∃ last, s.manager.lastTriggerTimes ruleId = some last ∧ t ≤ last

structure Orderly (s : Alarms) : Prop where
  spaced : ∀ ruleId, (s.manager.triggers ruleId).Pairwise (Since s.manager.rules ruleId)
  past : ∀ ruleId last, s.manager.lastTriggerTimes ruleId = some last → last ≤ s.clock
  one : ∀ (j k : ℕ) (c d : Detection) (ruleId : ℤ), s.calls[j]? = some c → s.calls[k]? = some d →
    c.pending.rule? = some ruleId → d.pending.rule? = some ruleId → j = k
  standing : ∀ d ∈ s.calls, s.Standing d.pending
  noted : ∀ ruleId, s.Noted ruleId

/-- The order of the records is the order of the triggers, so they are spaced. -/
theorem Orderly.toSpaced {s : Alarms} (h : s.Orderly) : s.Spaced := by
  intro a ha b hb hne hsame rule hrule
  have hpairs := List.pairwise_map.mp (h.spaced a.2.ruleId)
  have hapart : (s.manager.history.select fun row => row.2.ruleId = a.2.ruleId).Pairwise
      fun x y => rule.cooldownSec * 1000 ≤ |x.2.triggeredAt - y.2.triggeredAt| := by
    refine hpairs.imp fun hsince => ?_
    rw [abs_sub_comm]
    exact (le_sub_iff_add_le'.mpr (hsince.2 rule hrule)).trans (le_abs_self _)
  have hsymm : Std.Symm fun x y : ℤ × AlarmRecord =>
      rule.cooldownSec * 1000 ≤ |x.2.triggeredAt - y.2.triggeredAt| :=
    ⟨fun x y hxy => by rwa [abs_sub_comm]⟩
  refine hapart.forall ?_ ?_ hne
  · exact Table.mem_select.mpr ⟨ha, by simp⟩
  · exact Table.mem_select.mpr ⟨hb, by simp [hsame]⟩

/-! ### One turn -/

variable {s : Alarms} {k : ℕ} {d : Detection}

/-- A call after a turn of the `k`-th is that one, or one of the others as it was. -/
theorem mem_set {d' c : Detection} (h : c ∈ s.calls.set k d') :
    c = d' ∨ ∃ j, j ≠ k ∧ s.calls[j]? = some c := by
  obtain ⟨j, hj⟩ := List.mem_iff_getElem?.mp h
  by_cases e : k = j
  · subst e
    rw [List.getElem?_set_self'] at hj
    obtain ⟨_, -, rfl⟩ := Option.map_eq_some_iff.mp hj
    exact .inl rfl
  · rw [List.getElem?_set_ne e] at hj
    exact .inr ⟨j, Ne.symm e, hj⟩

/-- The others have passed no check of the rule the `k`-th has passed the check of. -/
theorem Orderly.others (h : s.Orderly) (hk : s.calls[k]? = some d) {ruleId : ℤ}
    (hd : d.pending.rule? = some ruleId) {j : ℕ} (hj : j ≠ k) {c : Detection}
    (hc : s.calls[j]? = some c) : c.pending.rule? ≠ some ruleId :=
  fun hsame => hj (h.one j k c d ruleId hc hk hsame hd)

theorem Free.of_getElem? {ruleId : ℤ} (h : s.Free ruleId) {j : ℕ} {c : Detection}
    (hc : s.calls[j]? = some c) : c.pending.rule? ≠ some ruleId :=
  h c (List.mem_of_getElem? hc)

/-- The `k`-th call has passed the check of no rule, of the one it had, or of one that is free. -/
theorem Orderly.one_set (h : s.Orderly) (hk : s.calls[k]? = some d) {pending : Pending}
    (hpending : ∀ ruleId, pending.rule? = some ruleId →
      d.pending.rule? = some ruleId ∨ s.Free ruleId) (i j : ℕ) (b c : Detection) (ruleId : ℤ)
    (hb : (s.calls.set k { d with pending })[i]? = some b)
    (hc : (s.calls.set k { d with pending })[j]? = some c) (hbr : b.pending.rule? = some ruleId)
    (hcr : c.pending.rule? = some ruleId) : i = j := by
  have hlt : k < s.calls.length := (List.getElem?_eq_some_iff.mp hk).1
  have hother : ∀ j c, j ≠ k → s.calls[j]? = some c → c.pending.rule? = some ruleId →
      pending.rule? ≠ some ruleId := by
    intro j c hj hc hcr hnew
    rcases hpending ruleId hnew with hd | hfree
    · exact h.others hk hd hj hc hcr
    · exact hfree.of_getElem? hc hcr
  by_cases hi : k = i
  · subst hi
    rw [List.getElem?_set_self hlt, Option.some.injEq] at hb
    subst hb
    by_cases hj : k = j
    · exact hj
    · rw [List.getElem?_set_ne hj] at hc
      exact absurd hbr (hother j c (Ne.symm hj) hc hcr)
  · rw [List.getElem?_set_ne hi] at hb
    by_cases hj : k = j
    · subst hj
      rw [List.getElem?_set_self hlt, Option.some.injEq] at hc
      subst hc
      exact absurd hcr (hother i b (Ne.symm hi) hb hbr)
    · rw [List.getElem?_set_ne hj] at hc
      exact h.one i j b c ruleId hb hc hbr hcr

/-- What is noted of a rule that the `k`-th call is not about to note. -/
theorem Noted.set {ruleId : ℤ} (h : s.Noted ruleId) (hk : s.calls[k]? = some d)
    (hnote : ∀ record rules, d.pending = .note record rules → record.ruleId ≠ ruleId)
    {d' : Detection} {manager : AlarmManager}
    (htriggers : manager.triggers ruleId = s.manager.triggers ruleId)
    (hlast : manager.lastTriggerTimes ruleId = s.manager.lastTriggerTimes ruleId) :
    Noted { s with manager, calls := s.calls.set k d' } ruleId := by
  rcases h with ⟨c, hc, record, rules, hcall, hrule⟩ | hall
  · -- the call about to note it is another one, so it still is
    obtain ⟨j, hj⟩ := List.mem_iff_getElem?.mp hc
    have hne : k ≠ j := by
      rintro rfl
      rw [hk, Option.some.injEq] at hj
      exact hnote record rules (hj ▸ hcall) hrule
    refine .inl ⟨c, List.mem_of_getElem? (i := j) ?_, record, rules, hcall, hrule⟩
    rw [List.getElem?_set_ne hne, hj]
  · refine .inr fun t ht => ?_
    rw [htriggers] at ht
    rw [hlast]
    exact hall t ht

/-- A turn that leaves the manager as it is. -/
theorem Orderly.setPending (h : s.Orderly) (hk : s.calls[k]? = some d) {pending : Pending}
    (hstanding : s.Standing pending)
    (hpending : ∀ ruleId, pending.rule? = some ruleId →
      d.pending.rule? = some ruleId ∨ s.Free ruleId)
    (hnote : ∀ record rules, d.pending ≠ .note record rules) :
    Orderly { s with calls := s.calls.set k { d with pending } } where
  spaced := h.spaced
  past := h.past
  one := h.one_set hk hpending
  standing c hc := by
    rcases mem_set hc with rfl | ⟨j, -, hj⟩
    · exact hstanding
    · exact h.standing c (List.mem_of_getElem? hj)
  noted ruleId :=
    (h.noted ruleId).set hk (fun record rules hd => absurd hd (hnote record rules)) rfl rfl

/-! ### A record and its note -/

theorem triggers_insertAlarm (ruleId : ℤ) (record : AlarmRecord) (m : AlarmManager) :
    (m.insertAlarm true record).1.triggers ruleId =
      m.triggers ruleId ++ if record.ruleId = ruleId then [record.triggeredAt] else [] := by
  simp only [AlarmManager.triggers, AlarmManager.insertAlarm, if_true, Table.select_insert,
    List.map_append, decide_eq_true_eq]
  split <;> rfl

theorem triggers_insertAlarm_ne {ruleId : ℤ} {record : AlarmRecord} (m : AlarmManager)
    (h : record.ruleId ≠ ruleId) :
    (m.insertAlarm true record).1.triggers ruleId = m.triggers ruleId := by
  rw [triggers_insertAlarm, if_neg h, List.append_nil]

/-- Where a call stands depends on the triggers of its own rule. -/
theorem Standing.congr {s' : Alarms} {pending : Pending} (h : s.Standing pending)
    (hrules : s'.manager.rules = s.manager.rules) (hclock : s.clock ≤ s'.clock)
    (htriggers : ∀ ruleId, pending.rule? = some ruleId →
      s'.manager.triggers ruleId = s.manager.triggers ruleId) : s'.Standing pending := by
  cases pending with
  | check _ => trivial
  | stamp rule _ =>
      intro t ht
      rw [htriggers rule.1 rfl] at ht
      obtain ⟨hle, hcooldown⟩ := h t ht
      refine ⟨hle.trans hclock, fun r hr => ?_⟩
      rw [hrules] at hr
      exact (hcooldown r hr).trans hclock
  | insert record _ =>
      refine ⟨h.1.trans hclock, fun t ht => ?_⟩
      rw [htriggers record.ruleId rfl] at ht
      rw [hrules]
      exact h.2 t ht
  | note record _ =>
      refine ⟨h.1.trans hclock, fun t ht => ?_⟩
      rw [htriggers record.ruleId rfl] at ht
      exact h.2 t ht

/-- **A record is inserted.** -/
theorem Orderly.insertAlarm (h : s.Orderly) (hk : s.calls[k]? = some d) {record : AlarmRecord}
    {rules : List (ℤ × AlarmRule)} (hd : d.pending = .insert record rules) :
    Orderly
      { s with
        manager := (s.manager.insertAlarm true record).1
        calls := s.calls.set k { d with pending := .note record rules } } := by
  have hmem := List.mem_of_getElem? hk
  have hrule : d.pending.rule? = some record.ruleId := by rw [hd]; rfl
  obtain ⟨hpast, hsince⟩ : s.Standing (.insert record rules) := hd ▸ h.standing d hmem
  have hlt : k < s.calls.length := (List.getElem?_eq_some_iff.mp hk).1
  exact
    { spaced := fun ruleId => by
        show ((s.manager.insertAlarm true record).1.triggers ruleId).Pairwise _
        rw [triggers_insertAlarm]
        split
        · subst_vars
          refine List.pairwise_append.mpr ⟨h.spaced _, List.pairwise_singleton _ _, ?_⟩
          rintro t ht u hu
          rw [List.mem_singleton.mp hu]
          exact hsince t ht
        · rw [List.append_nil]
          exact h.spaced ruleId
      past := h.past
      one := h.one_set hk fun ruleId hnew => .inl (hrule.trans hnew)
      -- the call itself has the newest trigger; another call is about another rule
      standing := fun c hc => by
        rcases mem_set hc with rfl | ⟨j, hj, hcj⟩
        · refine ⟨hpast, fun t ht => ?_⟩
          rw [triggers_insertAlarm, if_pos rfl] at ht
          rcases List.mem_append.mp ht with hold | hnew
          · exact (hsince t hold).1
          · exact (List.mem_singleton.mp hnew).le
        · refine (h.standing c (List.mem_of_getElem? hcj)).congr rfl le_rfl fun ruleId hcr => ?_
          refine triggers_insertAlarm_ne _ fun e => ?_
          exact h.others hk hrule hj hcj (e ▸ hcr)
      noted := fun ruleId => by
        by_cases e : record.ruleId = ruleId
        · exact .inl ⟨_, List.mem_of_getElem? (List.getElem?_set_self hlt), record, rules, rfl, e⟩
        · refine (h.noted ruleId).set hk ?_ (triggers_insertAlarm_ne _ e) rfl
          rw [hd]
          exact fun _ _ hnote => nomatch hnote }

/-- **A trigger is noted.** -/
theorem Orderly.noteTrigger (h : s.Orderly) (hk : s.calls[k]? = some d) {record : AlarmRecord}
    {rules : List (ℤ × AlarmRule)} (hd : d.pending = .note record rules) :
    Orderly
      { s with
        manager := s.manager.noteTrigger record.ruleId record.triggeredAt
        calls := s.calls.set k { d with pending := .check rules } } := by
  obtain ⟨hpast, hnewest⟩ : s.Standing (.note record rules) :=
    hd ▸ h.standing d (List.mem_of_getElem? hk)
  exact
    { spaced := h.spaced
      past := fun ruleId last hlast => by
        by_cases e : ruleId = record.ruleId
        · subst e
          simp only [AlarmManager.noteTrigger, Function.update_self, Option.some.injEq] at hlast
          exact hlast ▸ hpast
        · simp only [AlarmManager.noteTrigger, Function.update_of_ne e] at hlast
          exact h.past ruleId last hlast
      one := h.one_set hk fun ruleId hnew => nomatch hnew
      standing := fun c hc => by
        rcases mem_set hc with rfl | ⟨j, -, hj⟩
        · trivial
        · exact h.standing c (List.mem_of_getElem? hj)
      noted := fun ruleId => by
        by_cases e : ruleId = record.ruleId
        · subst e
          refine .inr fun t ht => ⟨record.triggeredAt, ?_, hnewest t ht⟩
          simp only [AlarmManager.noteTrigger, Function.update_self]
        · refine (h.noted ruleId).set hk ?_ rfl (Function.update_of_ne e _ _)
          rintro record' rules' hd' rfl
          rw [hd, Pending.note.injEq] at hd'
          exact e (congrArg AlarmRecord.ruleId hd'.1).symm }

/-! ### Runs -/

/-- A rule whose check passes while no call holds it has been quiet for its cooldown. -/
theorem Orderly.check (h : s.Orderly) {rule : ℤ × AlarmRule} {rules : List (ℤ × AlarmRule)}
    (hcheck : s.manager.checkCooldown s.clock rule.1) (hfree : s.Free rule.1) :
    s.Standing (.stamp rule rules) := by
  intro t ht
  rcases h.noted rule.1 with ⟨c, hc, record, rules', hcall, hrule⟩ | hall
  · exact absurd (by rw [hcall, ← hrule]; rfl) (hfree c hc)
  · obtain ⟨last, hlast, hle⟩ := hall t ht
    refine ⟨hle.trans (h.past rule.1 last hlast), fun r hr => ?_⟩
    simp only [AlarmManager.checkCooldown, hlast, AlarmManager.cooldownSec, hr, Option.map_some,
      Option.getD_some, decide_eq_true_eq] at hcheck
    omega

/-- **One turn.** -/
theorem Orderly.turn (h : s.Orderly) (k : ℕ) (inserts : Bool) (hapart : s.Apart (.turn k inserts)) :
    (s.step (.turn k inserts)).Orderly := by
  simp only [step]
  cases hk : s.calls[k]? with
  | none => exact h
  | some d =>
      have hapart := hapart d hk
      have hstanding := h.standing d (List.mem_of_getElem? hk)
      dsimp only
      cases hd : d.pending with
      | check rules =>
          have hnote : ∀ record rules, d.pending ≠ .note record rules := by simp [hd]
          cases rules with
          | nil =>
              simp only [Detection.advance, hd]
              exact h.setPending hk trivial (fun _ hnew => nomatch hnew) hnote
          | cons rule rules =>
              simp only [Detection.advance, hd]
              split
              · rename_i hcheck
                -- off cooldown: nobody else is between check and record
                have hfree := hapart rule.1 (by rw [hd]; rfl) hcheck
                refine h.setPending hk (h.check hcheck hfree) (fun ruleId hnew => .inr ?_) hnote
                exact Option.some.inj hnew ▸ hfree
              · exact h.setPending hk trivial (fun _ hnew => nomatch hnew) hnote
      | stamp rule rules =>
          simp only [Detection.advance, hd]
          rw [hd] at hstanding
          exact h.setPending hk ⟨le_rfl, hstanding⟩ (fun ruleId hnew => .inl (by rw [hd]; exact hnew))
            (by simp [hd])
      | insert record rules =>
          simp only [Detection.advance, hd]
          cases inserts with
          | false => exact h.setPending hk trivial (fun _ hnew => nomatch hnew) (by simp [hd])
          | true =>
              -- an insert that succeeds gives an id from 1 on
              have hid : ¬ (s.manager.insertAlarm true record).2 < 0 := by
                have := s.manager.history.seq_nonneg
                simp only [AlarmManager.insertAlarm, if_true]
                omega
              rw [if_neg hid]
              exact h.insertAlarm hk hd
      | note record rules =>
          simp only [Detection.advance, hd]
          exact h.noteTrigger hk hd

/-- A call that holds a rule is one of those there before the new one. -/
theorem getElem?_begin {c new : Detection} {j : ℕ} {ruleId : ℤ} (hnew : new.pending.rule? = none)
    (hc : (s.calls ++ [new])[j]? = some c) (hcr : c.pending.rule? = some ruleId) :
    s.calls[j]? = some c := by
  rcases Nat.lt_or_ge j s.calls.length with hlt | hge
  · rwa [List.getElem?_append_left hlt] at hc
  · rw [List.getElem?_append_right hge, List.getElem?_singleton] at hc
    split at hc
    · rw [Option.some.injEq] at hc
      rw [← hc, hnew] at hcr
      exact nomatch hcr
    · exact nomatch hc

theorem Orderly.begin (h : s.Orderly) (channelId : ℤ) (eventType : String) (confidence : ℚ)
    (metadata : String) : (s.step (.begin channelId eventType confidence metadata)).Orderly where
  spaced := h.spaced
  past := h.past
  one j k c d ruleId hc hd hcr hdr :=
    h.one j k c d ruleId (getElem?_begin rfl hc hcr) (getElem?_begin rfl hd hdr) hcr hdr
  standing d hd := by
    rcases List.mem_append.mp hd with hold | hnew
    · exact h.standing d hold
    · rw [List.mem_singleton.mp hnew]
      trivial
  noted ruleId := (h.noted ruleId).imp_left fun ⟨d, hd, hnote⟩ =>
    ⟨d, List.mem_append_left _ hd, hnote⟩

theorem Orderly.step (h : s.Orderly) (a : AlarmStep) (hapart : s.Apart a) : (s.step a).Orderly := by
  cases a with
  | turn k inserts => exact h.turn k inserts hapart
  | tick ms =>
      have hclock : s.clock ≤ s.clock + ms := by omega
      exact
        { spaced := h.spaced
          past := fun ruleId last hlast => (h.past ruleId last hlast).trans hclock
          one := h.one
          standing := fun d hd => (h.standing d hd).congr rfl hclock fun _ _ => rfl
          noted := h.noted }
  | begin channelId eventType confidence metadata =>
      exact h.begin channelId eventType confidence metadata

theorem orderly_start (rules : Table AlarmRule) (clock : ℤ) : (start rules clock).Orderly where
  spaced _ := .nil
  past _ _ h := nomatch h
  one _ _ _ _ _ h := nomatch h
  standing _ h := nomatch h
  noted _ := .inr fun _ h => nomatch h

/-- **The alarms of a rule are its cooldown apart in every state of a run in which no call passes
the check of a rule that another has passed and not noted.** -/
theorem spaced_of_apart (rules : Table AlarmRule) (clock : ℤ) (steps : List AlarmStep)
    (h : EveryStep step Apart (start rules clock) steps) :
    Along step Spaced (start rules clock) steps :=
  have hstep : ∀ s a, Orderly s → s.Apart a → (s.step a).Orderly :=
    fun _ a hs hapart => hs.step a hapart
  (along_of_everyStep hstep (orderly_start rules clock) h).mono fun _ hs => hs.toSpaced

/-- One rule for every channel and event, with the default cooldown of thirty seconds. -/
def anyDetection : Table AlarmRule := Table.empty.insert { name := "any" }

/-- One detection after the other: the second within the cooldown, the third after it. -/
theorem spaced_oneByOne :
    Along step Spaced (start anyDetection 0)
      [.begin 1 "person" 1 "", .turn 0 true, .turn 0 true, .turn 0 true, .turn 0 true,
        .begin 2 "car" 1 "", .turn 1 true, .tick 30000,
        .begin 2 "car" 1 "", .turn 2 true, .turn 2 true, .turn 2 true, .turn 2 true] :=
  spaced_of_apart _ _ _ (by decide +kernel)

/-- Two calls check the rule before either notes its trigger: both insert a record. -/
theorem spaced_refuted :
    ¬ ∀ (rules : Table AlarmRule) (clock : ℤ) (steps : List AlarmStep),
      Along step Spaced (start rules clock) steps := by
  intro h
  have hspaced := (h anyDetection 0
    [.begin 1 "person" 1 "", .begin 2 "person" 1 "", .turn 0 true, .turn 1 true, .turn 0 true,
      .turn 0 true, .turn 1 true, .turn 1 true]).last
  have hapart := hspaced
    (1, { ruleId := 1, channelId := 1, eventType := "person", confidence := 1 }) (by decide +kernel)
    (2, { ruleId := 1, channelId := 2, eventType := "person", confidence := 1 }) (by decide +kernel)
    (by decide) rfl { name := "any" } (by decide +kernel)
  exact absurd hapart (by decide)

end Alarms

end LoongNvr.Alarm
