import LoongNvr.Core.HotReloadManager
import LoongNvr.Support.Runs

/-!
# Core — SectionHandlers

What the section handlers are given while calls run side by side.  `ApplyPatch` holds `mutex_` from
its merge to its last handler; `OnFileChanged` reads the file, holds the mutex while it puts the new
configuration in place of the old one, and then calls the handlers without it.

* `Reloading`: the manager and the calls under way, each handler call a step of its own.
* `CurrentGiven`: each handler was last given what the configuration has of its section.
* `calledOnce_iff`: how often one call calls a handler.
* `InOrder`: no `OnFileChanged` gives a handler what is not current any more.
* `stale_last`: where it does so last of all, the handler is left with that.
* `current_of_inOrder`: in a run of such steps every handler has the current value when no call is
  under way, and each call calls it once if its section changed.
-/

namespace LoongNvr.Core.HotReloadManager
open Support

/-- A call that has begun, with what it has still to do. -/
inductive ReloadCall (ν : Type*)
  | read (newConfig : Document ν)
  | swapped (oldConfig newConfig : Document ν)
  | notifying (locked : Bool) (rest : List (ℕ × ν))
  deriving DecidableEq

/-- The manager and its calls, in the order they began. -/
structure Reloading (ν : Type*) where
  manager : HotReloadManager ν
  calls : List (ReloadCall ν) := []

/-- A step of a call, or a change of the file from outside. -/
inductive ReloadAction (ν : Type*)
  | edit (text : Option (Document ν))
  | applyPatch (patch : Document ν)
  | onFileChanged
  | swap (i : ℕ)
  | notify (i : ℕ)
  | call (i : ℕ)

namespace Reloading

variable {ν : Type*}

/-- An `ApplyPatch` that still has handlers to call holds the mutex. -/
def ReloadCall.holdsMutex : ReloadCall ν → Bool
  | .notifying true (_ :: _) => true
  | _ => false

def locked (s : Reloading ν) : Bool := s.calls.any ReloadCall.holdsMutex

theorem rest_of_not_locked {s : Reloading ν} (h : ¬ s.locked = true) {rest : List (ℕ × ν)}
    (hmem : ReloadCall.notifying true rest ∈ s.calls) : rest = [] := by
  cases rest with
  | nil => rfl
  | cons next rest => exact absurd (List.any_eq_true.mpr ⟨_, hmem, rfl⟩) h

variable [DecidableEq ν] (null : ν)

/-- The merge, the load and the save of `ApplyPatch`; it waits for the mutex. -/
def applyPatch (patch : Document ν) (s : Reloading ν) : Reloading ν :=
  if s.locked then s
  else
    match mergePatch patch s.manager with
    | none => s
    | some manager =>
        { manager := manager
          calls := s.calls ++ [.notifying true (notifications null manager.sectionHandlers
            s.manager.currentConfig manager.currentConfig)] }

/-- `OnFileChanged` has read the file. -/
def onFileChanged (s : Reloading ν) : Reloading ν :=
  match s.manager.file with
  | none => s
  | some newConfig => { s with calls := s.calls ++ [.read newConfig] }

/-- Its section under the mutex. -/
def swap (i : ℕ) (s : Reloading ν) : Reloading ν :=
  match s.calls[i]? with
  | some (.read newConfig) =>
      if s.locked then s
      else
        { manager := { s.manager with currentConfig := newConfig }
          calls := s.calls.set i (.swapped s.manager.currentConfig newConfig) }
  | _ => s

/-- Its load of the file, and the sections that changed. -/
def notify (i : ℕ) (s : Reloading ν) : Reloading ν :=
  match s.calls[i]? with
  | some (.swapped oldConfig newConfig) =>
      { manager := s.manager.loadFromFile.1
        calls := s.calls.set i
          (.notifying false (notifications null s.manager.sectionHandlers oldConfig newConfig)) }
  | _ => s

/-- The next handler of a call. -/
def call (i : ℕ) (s : Reloading ν) : Reloading ν :=
  match s.calls[i]? with
  | some (.notifying locked (next :: rest)) =>
      { manager := s.manager.give next
        calls := s.calls.set i (.notifying locked rest) }
  | _ => s

def step (s : Reloading ν) : ReloadAction ν → Reloading ν
  | .edit text => { s with manager := { s.manager with file := text } }
  | .applyPatch patch => s.applyPatch null patch
  | .onFileChanged => s.onFileChanged
  | .swap i => s.swap i
  | .notify i => s.notify null i
  | .call i => s.call i

/-! ### What the handlers are to be given -/

/-- All calls have finished. -/
def Settled (s : Reloading ν) : Prop := ∀ call ∈ s.calls, ∃ locked, call = .notifying locked []

/-- Each handler was last given what the configuration has of its section. -/
def CurrentGiven (m : HotReloadManager ν) : Prop :=
  ∀ entry ∈ m.sectionHandlers, entry.given = sectionCfg null m.currentConfig entry.key

/-- A call calls each handler once if its section changed, appeared or disappeared, and not
otherwise. -/
def CalledOnce (handlers : List (SectionEntry ν)) (oldConfig newConfig : Document ν) : Prop :=
  ∀ i entry, handlers[i]? = some entry →
    ((notifications null handlers oldConfig newConfig).map (·.1)).count i =
      if oldConfig.member entry.key = newConfig.member entry.key then 0 else 1

/-- What is about the calls that compare two configurations. -/
def Exact (s : Reloading ν) : ReloadAction ν → Prop
  | .applyPatch patch => ∀ manager, mergePatch patch s.manager = some manager →
      CalledOnce null manager.sectionHandlers s.manager.currentConfig manager.currentConfig
  | .notify i => ∀ oldConfig newConfig, s.calls[i]? = some (.swapped oldConfig newConfig) →
      CalledOnce null s.manager.sectionHandlers oldConfig newConfig
  | _ => True

/-! ### How often a handler is called -/

/-- A section that is an item of the new configuration and no member was a member with that value;
one that was an item and no member is a member now.  In an object every item is a member. -/
structure Keyed (oldConfig newConfig : Document ν) (key : String) : Prop where
  new : ∀ value, newConfig.items.lookup key = some value → newConfig.member key = none →
    oldConfig.member key = some value
  old : ∀ value, oldConfig.items.lookup key = some value → oldConfig.member key = none →
    newConfig.member key ≠ none

variable {null} {handlers : List (SectionEntry ν)} {oldConfig newConfig : Document ν}

omit [DecidableEq ν] in
theorem keyed_of_member {key : String} (h : newConfig.member key ≠ none) :
    Keyed oldConfig newConfig key :=
  ⟨fun _ _ hnone => absurd hnone h, fun _ _ _ => h⟩

omit [DecidableEq ν] in
theorem appears_iff_of_member {key : String} {value : ν}
    (h : newConfig.member key = some value) :
    Appears oldConfig newConfig key ↔ oldConfig.member key ≠ some value := by
  constructor
  · rintro ⟨value', hitem, hne⟩
    obtain rfl := Option.some.inj ((Document.lookup_of_member h).symm.trans hitem)
    exact hne
  · intro hne
    exact ⟨value, Document.lookup_of_member h, hne⟩

/-- A section that is no member must not appear; nor disappear, if it was none before. -/
theorem keyed_iff_of_none {key : String} (h : newConfig.member key = none) :
    Keyed oldConfig newConfig key ↔
      ¬ Appears oldConfig newConfig key ∧
        (oldConfig.member key = none → ¬ Disappears oldConfig newConfig key) := by
  constructor
  · intro hkeyed
    refine ⟨?_, fun hold => ?_⟩
    · rintro ⟨value, hitem, hne⟩
      exact hne (hkeyed.new value hitem h)
    · rintro ⟨⟨value, hitem⟩, -⟩
      exact hkeyed.old value hitem hold h
  · rintro ⟨happears, hdisappears⟩
    refine ⟨fun value hitem _ => ?_, fun value hitem hold => ?_⟩
    · by_contra hne
      exact happears ⟨value, hitem, hne⟩
    · exact absurd ⟨⟨value, hitem⟩, h⟩ (hdisappears hold)

/-- **A section is among the changed ones once if it changed, and not otherwise**, exactly if it is
an item only where it is a member, but for the one that comes to the same. -/
theorem count_eq_iff (key : String) :
    ((changedSections oldConfig newConfig).count key =
        if oldConfig.member key = newConfig.member key then 0 else 1) ↔
      Keyed oldConfig newConfig key := by
  classical
  rw [count_changedSections]
  cases hnew : newConfig.member key with
  | some value =>
      -- a member now: it cannot disappear, and appears if it was another
      have hstays : ¬ Disappears oldConfig newConfig key := by
        rintro ⟨-, hgone⟩
        rw [hnew] at hgone
        cases hgone
      refine iff_of_true ?_ (keyed_of_member (by simp [hnew]))
      rw [if_neg hstays, Nat.add_zero, if_congr (appears_iff_of_member hnew) rfl rfl, ite_not]
  | none =>
      rw [keyed_iff_of_none hnew]
      cases hold : oldConfig.member key with
      | some value =>
          -- gone: so it must not appear too
          have hgone : Disappears oldConfig newConfig key :=
            ⟨⟨value, Document.lookup_of_member hold⟩, hnew⟩
          rw [if_pos hgone, if_neg (Option.some_ne_none value)]
          by_cases happears : Appears oldConfig newConfig key
          · simp [happears]
          · simp [happears]
      | none =>
          -- a member of neither: so it must be no item of either
          rw [if_pos rfl]
          by_cases happears : Appears oldConfig newConfig key
          · simp [happears]
          · simp [happears]

/-- **One call** calls each handler as often as it should exactly if this is so of every handler's
section. -/
theorem calledOnce_iff :
    CalledOnce null handlers oldConfig newConfig ↔
      ∀ entry ∈ handlers, Keyed oldConfig newConfig entry.key := by
  constructor
  · intro h entry hentry
    obtain ⟨i, hi⟩ := List.mem_iff_getElem?.mp hentry
    have hcount := h i entry hi
    rw [count_notifications hi] at hcount
    exact (count_eq_iff entry.key).mp hcount
  · intro h i entry hi
    rw [count_notifications hi]
    exact (count_eq_iff entry.key).mpr (h entry (List.mem_of_getElem? hi))

/-! ### Who has still to call a handler -/

/-- The call has still to call handler `h`, which is of the section `key`. -/
def Owes (h : ℕ) (key : String) : ReloadCall ν → Prop
  | .read _ => False
  | .swapped oldConfig newConfig => oldConfig.member key ≠ newConfig.member key
  | .notifying _ rest => ∃ value, (h, value) ∈ rest

variable (null) in
/-- A handler that does not have the current value will still be called; and an `ApplyPatch` gives
current values. -/
structure Tracked (s : Reloading ν) : Prop where
  owed : ∀ h entry, s.manager.sectionHandlers[h]? = some entry →
    entry.given = sectionCfg null s.manager.currentConfig entry.key ∨
      ∃ call ∈ s.calls, Owes h entry.key call
  current : ∀ rest, ReloadCall.notifying true rest ∈ s.calls → ∀ h value, (h, value) ∈ rest →
    ∀ entry, s.manager.sectionHandlers[h]? = some entry →
      value = sectionCfg null s.manager.currentConfig entry.key

variable (null) in
/-- `OnFileChanged` gives a handler what is current at that time; and the configurations a call
compares have the sections of the handlers among their items as among their members. -/
def InOrder (s : Reloading ν) : ReloadAction ν → Prop
  | .call i => ∀ h value rest, s.calls[i]? = some (.notifying false ((h, value) :: rest)) →
      ∀ entry, s.manager.sectionHandlers[h]? = some entry →
        value = sectionCfg null s.manager.currentConfig entry.key
  | .applyPatch patch => ∀ manager, mergePatch patch s.manager = some manager →
      ∀ entry ∈ manager.sectionHandlers,
        Keyed s.manager.currentConfig manager.currentConfig entry.key
  | .notify i => ∀ oldConfig newConfig, s.calls[i]? = some (.swapped oldConfig newConfig) →
      ∀ entry ∈ s.manager.sectionHandlers, Keyed oldConfig newConfig entry.key
  | _ => True

/-- What some call of a list does, where one of them has gone on. -/
theorem exists_mem_set {α : Type*} {l : List α} {i : ℕ} {a b : α} {P : α → Prop}
    (h : l[i]? = some a) (hab : P a → P b) (hex : ∃ c ∈ l, P c) : ∃ c ∈ l.set i b, P c := by
  obtain ⟨c, hc, hP⟩ := hex
  obtain ⟨j, hj⟩ := List.mem_iff_getElem?.mp hc
  by_cases e : i = j
  · subst e
    obtain rfl := Option.some.inj (h.symm.trans hj)
    obtain ⟨hlt, -⟩ := List.getElem?_eq_some_iff.mp h
    exact ⟨b, List.mem_set hlt b, hab hP⟩
  · exact ⟨c, List.mem_of_getElem? (by rw [List.getElem?_set_ne e, hj]), hP⟩

variable {s : Reloading ν}

omit [DecidableEq ν] in
theorem sectionCfg_congr {key : String} (h : oldConfig.member key = newConfig.member key) :
    sectionCfg null oldConfig key = sectionCfg null newConfig key := by
  rw [sectionCfg, sectionCfg, h]

theorem Tracked.applyPatch (ht : Tracked null s) (patch : Document ν) :
    Tracked null (s.applyPatch null patch) := by
  rw [Reloading.applyPatch]
  split
  · exact ht
  · rename_i hfree
    cases hmerge : mergePatch patch s.manager with
    | none => exact ht
    | some manager =>
        obtain ⟨config, -, hcurrent, -, -, hhandlers⟩ := mergePatch_eq_some hmerge
        refine ⟨fun h entry hentry => ?_, fun rest hrest h value hvalue entry hentry => ?_⟩
        · rw [hhandlers] at hentry
          by_cases hsame : s.manager.currentConfig.member entry.key =
              manager.currentConfig.member entry.key
          · rcases ht.owed h entry hentry with hgiven | ⟨call, hcall, howes⟩
            · exact .inl (hgiven.trans (sectionCfg_congr hsame))
            · exact .inr ⟨call, List.mem_append_left _ hcall, howes⟩
          · refine .inr ⟨_, List.mem_append_right _ (List.mem_singleton_self _), ?_⟩
            exact ⟨_, mem_notifications.mpr
              ⟨entry, hhandlers ▸ hentry, changed_of_ne hsame, rfl⟩⟩
        · rcases List.mem_append.mp hrest with hold | hnew
          · rw [rest_of_not_locked hfree hold] at hvalue
            cases hvalue
          · cases List.mem_singleton.mp hnew
            obtain ⟨entry', hentry', -, rfl⟩ := mem_notifications.mp hvalue
            obtain rfl := Option.some.inj (hentry.symm.trans hentry')
            rfl

theorem Tracked.swap (ht : Tracked null s) (i : ℕ) : Tracked null (s.swap i) := by
  rw [Reloading.swap]
  split
  · rename_i newConfig hread
    split
    · exact ht
    · rename_i hfree
      refine ⟨fun h entry hentry => ?_, fun rest hrest h value hvalue entry hentry => ?_⟩
      · by_cases hsame : s.manager.currentConfig.member entry.key = newConfig.member entry.key
        · rcases ht.owed h entry hentry with hgiven | howed
          · exact .inl (hgiven.trans (sectionCfg_congr hsame))
          · exact .inr (exists_mem_set hread False.elim howed)
        · obtain ⟨hlt, -⟩ := List.getElem?_eq_some_iff.mp hread
          exact .inr ⟨_, List.mem_set hlt _, hsame⟩
      · rcases List.mem_or_eq_of_mem_set hrest with hold | hnew
        · rw [rest_of_not_locked hfree hold] at hvalue
          cases hvalue
        · cases hnew
  · exact ht

theorem Tracked.notify (ht : Tracked null s) (i : ℕ) : Tracked null (s.notify null i) := by
  rw [Reloading.notify]
  split
  · rename_i oldConfig newConfig hswapped
    refine ⟨fun h entry hentry => ?_, fun rest hrest h value hvalue entry hentry => ?_⟩
    · simp only [loadFromFile_sectionHandlers, loadFromFile_currentConfig] at hentry ⊢
      refine (ht.owed h entry hentry).imp_right fun howed => ?_
      refine exists_mem_set hswapped (fun hne => ?_) howed
      exact ⟨_, mem_notifications.mpr ⟨entry, hentry, changed_of_ne hne, rfl⟩⟩
    · simp only [loadFromFile_sectionHandlers, loadFromFile_currentConfig] at hentry ⊢
      rcases List.mem_or_eq_of_mem_set hrest with hold | hnew
      · exact ht.current rest hold h value hvalue entry hentry
      · cases hnew
  · exact ht

omit [DecidableEq ν] in
/-- A handler, after one was called. -/
theorem getElem?_give {m : HotReloadManager ν} {next : ℕ × ν} {h : ℕ} {entry : SectionEntry ν}
    (hentry : (m.give next).sectionHandlers[h]? = some entry) :
    ∃ before, m.sectionHandlers[h]? = some before ∧ entry.key = before.key ∧
      entry.given = if next.1 = h then next.2 else before.given := by
  rw [give, List.getElem?_modify] at hentry
  obtain ⟨before, hbefore, rfl⟩ := Option.map_eq_some_iff.mp hentry
  refine ⟨before, hbefore, ?_, ?_⟩
  · split <;> rfl
  · split <;> rfl

omit [DecidableEq ν] in
theorem Tracked.call (ht : Tracked null s) (i : ℕ) (hin : InOrder null s (.call i)) :
    Tracked null (s.call i) := by
  rw [Reloading.call]
  split
  · rename_i locked next rest hcall
    -- what is given is current, under the mutex or not
    have hcurrent : ∀ entry, s.manager.sectionHandlers[next.1]? = some entry →
        next.2 = sectionCfg null s.manager.currentConfig entry.key := by
      intro entry hentry
      cases locked with
      | true =>
          exact ht.current _ (List.mem_of_getElem? hcall) next.1 next.2 List.mem_cons_self entry
            hentry
      | false => exact hin next.1 next.2 rest hcall entry hentry
    refine ⟨fun h entry hentry => ?_, fun rest' hrest h value hvalue entry hentry => ?_⟩
    · obtain ⟨before, hbefore, hkey, hgiven⟩ := getElem?_give hentry
      rw [hkey]
      by_cases e : next.1 = h
      · subst e
        rw [if_pos rfl] at hgiven
        exact .inl (hgiven.trans (hcurrent before hbefore))
      · rw [if_neg e] at hgiven
        rcases ht.owed h before hbefore with hold | howed
        · exact .inl (hgiven.trans hold)
        · refine .inr (exists_mem_set hcall ?_ howed)
          rintro ⟨value, hvalue⟩
          rcases List.mem_cons.mp hvalue with rfl | hrest
          · exact absurd rfl e
          · exact ⟨value, hrest⟩
    · obtain ⟨before, hbefore, hkey, -⟩ := getElem?_give hentry
      rw [hkey]
      rcases List.mem_or_eq_of_mem_set hrest with hold | hnew
      · exact ht.current rest' hold h value hvalue before hbefore
      · cases hnew
        exact ht.current _ (List.mem_of_getElem? hcall) h value (List.mem_cons_of_mem _ hvalue)
          before hbefore
  · exact ht

/-- **A step in order** leaves no handler behind. -/
theorem Tracked.step (ht : Tracked null s) {a : ReloadAction ν} (hin : InOrder null s a) :
    Tracked null (s.step null a) := by
  cases a with
  | edit text => exact ⟨ht.owed, ht.current⟩
  | applyPatch patch => exact ht.applyPatch patch
  | onFileChanged =>
      simp only [Reloading.step, Reloading.onFileChanged]
      split
      · exact ht
      · refine ⟨fun h entry hentry => ?_, fun rest hrest => ?_⟩
        · refine (ht.owed h entry hentry).imp_right ?_
          rintro ⟨call, hcall, howes⟩
          exact ⟨call, List.mem_append_left _ hcall, howes⟩
        · rcases List.mem_append.mp hrest with hold | hnew
          · exact ht.current rest hold
          · cases List.mem_singleton.mp hnew
  | swap i => exact ht.swap i
  | notify i => exact ht.notify i
  | call i => exact ht.call i hin

omit [DecidableEq ν] in
/-- When no call has anything left to do, no handler is owed a value. -/
theorem Tracked.settled (ht : Tracked null s) (hs : Settled s) : CurrentGiven null s.manager := by
  intro entry hentry
  obtain ⟨h, hh⟩ := List.mem_iff_getElem?.mp hentry
  rcases ht.owed h entry hh with hgiven | ⟨call, hcall, howes⟩
  · exact hgiven
  · obtain ⟨locked, rfl⟩ := hs call hcall
    obtain ⟨value, hvalue⟩ := howes
    cases hvalue

theorem exact_of_inOrder {a : ReloadAction ν} (hin : InOrder null s a) : Exact null s a := by
  cases a with
  | applyPatch patch => exact fun manager hmerge => calledOnce_iff.mpr (hin manager hmerge)
  | notify i => exact fun old new hswapped => calledOnce_iff.mpr (hin old new hswapped)
  | _ => trivial

/-- The manager as it is started, with no call yet. -/
def begin (null : ν) (config : Document ν) (file : Option (Document ν)) (sections : List String) :
    Reloading ν where
  manager := start null config file sections

omit [DecidableEq ν] in
theorem begin_tracked (null : ν) (config : Document ν) (file : Option (Document ν))
    (sections : List String) : Tracked null (begin null config file sections) := by
  refine ⟨fun h entry hentry => .inl ?_, fun rest hrest => by cases hrest⟩
  obtain ⟨key, -, rfl⟩ := List.mem_map.mp (List.mem_of_getElem? hentry)
  rfl

/-- **Handlers end with the current configuration**, and each call calls them as often as it should,
in every run in which what `OnFileChanged` gives is current and sections are members. -/
theorem current_of_inOrder (null : ν) (config : Document ν) (file : Option (Document ν))
    (sections : List String) (as : List (ReloadAction ν))
    (h : EveryStep (step null) (InOrder null) (begin null config file sections) as) :
    Along (step null) (fun s => Settled s → CurrentGiven null s.manager)
        (begin null config file sections) as ∧
      EveryStep (step null) (Exact null) (begin null config file sections) as := by
  constructor
  · have htracked := along_of_everyStep (P := Tracked null) (fun _ _ ht hin => ht.step hin)
      (begin_tracked null config file sections) h
    exact htracked.mono fun _ ht => ht.settled
  · exact h.of_invariant (I := fun _ => True) (fun _ _ _ _ => trivial)
      (fun _ _ _ hin => exact_of_inOrder hin) trivial

omit [DecidableEq ν] in
/-- **A stale value that is given last stays.**  When all other calls have finished, a handler given
what is not current ends without the current configuration. -/
theorem stale_last {i h : ℕ} {value : ν} {entry : SectionEntry ν}
    (hcall : s.calls[i]? = some (.notifying false [(h, value)]))
    (hothers : ∀ j call, j ≠ i → s.calls[j]? = some call → ∃ locked, call = .notifying locked [])
    (hentry : s.manager.sectionHandlers[h]? = some entry)
    (hstale : value ≠ sectionCfg null s.manager.currentConfig entry.key) :
    Settled (s.call i) ∧ ¬ CurrentGiven null (s.call i).manager := by
  simp only [Reloading.call, hcall]
  constructor
  · intro call hmem
    obtain ⟨j, hj⟩ := List.mem_iff_getElem?.mp hmem
    rw [List.getElem?_set] at hj
    split at hj
    · split at hj
      · exact ⟨false, (Option.some.inj hj).symm⟩
      · cases hj
    · rename_i hne
      exact hothers j call (Ne.symm hne) hj
  · intro hcurrent
    have hgiven : (s.manager.give (h, value)).sectionHandlers[h]? =
        some { entry with given := value } := by
      rw [give, List.getElem?_modify_eq, hentry]
      rfl
    exact hstale (hcurrent _ (List.mem_of_getElem? hgiven))

omit [DecidableEq ν] in
/-- In objects every item is a member. -/
theorem keyed_object (members members' : Std.ExtTreeMap String ν) (key : String) :
    Keyed (.object members) (.object members') key := by
  refine ⟨fun value hitem hnone => ?_, fun value hitem hnone => ?_⟩
  · rw [Document.lookup_items_object] at hitem
    cases hitem.symm.trans hnone
  · rw [Document.lookup_items_object] at hitem
    cases hitem.symm.trans hnone

/-- A configuration of one section. -/
def hls (value : ℕ) : Document ℕ := .object (Std.ExtTreeMap.insert ∅ "hls" value)

/-- A change of the file, with no patch in between. -/
theorem current_alone :
    Along (step 0) (fun s => Settled s → CurrentGiven 0 s.manager)
        (begin 0 (hls 1) (some (hls 2)) ["hls"])
        [.onFileChanged, .swap 0, .notify 0, .call 0] ∧
      EveryStep (step 0) (Exact 0) (begin 0 (hls 1) (some (hls 2)) ["hls"])
        [.onFileChanged, .swap 0, .notify 0, .call 0] := by
  refine current_of_inOrder 0 (hls 1) (some (hls 2)) ["hls"] _ ⟨trivial, trivial, ?_, ?_, trivial⟩
  · intro oldConfig newConfig hswapped entry _
    cases hswapped
    exact keyed_object _ _ _
  · intro h value rest hcall entry hentry
    obtain ⟨-, hrest⟩ := ReloadCall.notifying.inj (Option.some.inj hcall)
    obtain ⟨entry', hentry', -, rfl⟩ := mem_notifications.mp (hrest ▸ List.mem_cons_self)
    obtain rfl := Option.some.inj (hentry.symm.trans hentry')
    rfl

/-- A patch comes between the swap and the handlers of a change of the file. -/
def overtaken : List (ReloadAction ℕ) :=
  [.onFileChanged, .swap 0, .applyPatch (hls 3), .call 1, .notify 0, .call 0]

/-- The handler is given 3 by the patch and then 2, which is not current any more. -/
theorem currentGiven_refuted :
    ¬ Along (step 0) (fun s => Settled s → CurrentGiven 0 s.manager)
      (begin 0 (hls 1) (some (hls 2)) ["hls"]) overtaken := by
  intro h
  have hsettled : (overtaken.foldl (step 0) (begin 0 (hls 1) (some (hls 2)) ["hls"])).calls =
      [.notifying false [], .notifying true []] := by decide +kernel
  have hhandlers : (overtaken.foldl (step 0)
      (begin 0 (hls 1) (some (hls 2)) ["hls"])).manager.sectionHandlers = [⟨"hls", 2⟩] := by
    decide +kernel
  have hgiven := h.last (by
    intro call hcall
    rw [hsettled] at hcall
    rcases List.mem_pair.mp hcall with rfl | rfl
    · exact ⟨false, rfl⟩
    · exact ⟨true, rfl⟩) ⟨"hls", 2⟩ (hhandlers ▸ List.mem_singleton_self _)
  exact absurd hgiven (by decide +kernel)

end Reloading

end LoongNvr.Core.HotReloadManager
