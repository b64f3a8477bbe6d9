import LoongNvr.Support.Document
import LoongNvr.Support.Runs

/-!
# Core — HotReloadManager

The configuration of a running server: `HotReloadManager` has a copy that its two calls change, the
config file is another, and `ConfigManager` holds a third.  A file is what its text parses to, and
it can be read and written.

* `loadFromFile`: `ConfigManager` takes what the file has.
* `changedSections`, `notifications`: the handler calls of `DiffAndNotify`, in order.
* `applyPatch`, `onFileChanged`: the two calls, each run to its end.
* `mem_notifications`, `count_notifications`: which handlers are called, with what and how often.
* `Agree`: the three copies are the same.
* `Returned`: they are when a call returns, and a patch has replaced its keys.
* `copiesAgree_iff`: all calls of a run do this exactly if at each patch the file had the merged
  configuration already.
* `agree_applyPatch_iff`: where the copies agree, a patch leaves them so exactly if it changes
  nothing.
-/

namespace LoongNvr.Core
open Support

/-- A registered handler, and the value it was given last. -/
structure SectionEntry (ν : Type*) where
  key : String
  given : ν
  deriving DecidableEq, Repr

/-- The manager, the config file (`none` if it is no JSON), and the configuration `ConfigManager`
holds. -/
structure HotReloadManager (ν : Type*) where
  currentConfig : Document ν
  sectionHandlers : List (SectionEntry ν) := []
  file : Option (Document ν)
  managed : Document ν

namespace HotReloadManager

variable {ν : Type*} (null : ν)

/-- `ConfigManager::LoadFromFile` -/
def loadFromFile (m : HotReloadManager ν) : HotReloadManager ν × Bool :=
  match m.file with
  | some config => ({ m with managed := config }, true)
  | none => (m, false)

/-- `file << current_config_.dump(2);` -/
def save (m : HotReloadManager ν) : HotReloadManager ν := { m with file := some m.currentConfig }

@[simp] theorem loadFromFile_currentConfig (m : HotReloadManager ν) :
    m.loadFromFile.1.currentConfig = m.currentConfig := by
  rw [loadFromFile]
  split <;> rfl

@[simp] theorem loadFromFile_sectionHandlers (m : HotReloadManager ν) :
    m.loadFromFile.1.sectionHandlers = m.sectionHandlers := by
  rw [loadFromFile]
  split <;> rfl

/-- `ApplyPatch` up to its notifications; `none` if the merge throws. -/
def mergePatch (patch : Document ν) (m : HotReloadManager ν) : Option (HotReloadManager ν) :=
  (patch.merge m.currentConfig).map fun config =>
    (loadFromFile { m with currentConfig := config }).1.save

/-- **Where the merge leaves the three copies.** -/
theorem mergePatch_eq_some {patch : Document ν} {m m' : HotReloadManager ν}
    (h : mergePatch patch m = some m') :
    ∃ config, patch.merge m.currentConfig = some config ∧ m'.currentConfig = config ∧
      m'.file = some config ∧ m'.managed = (m.file.getD m.managed) ∧
      m'.sectionHandlers = m.sectionHandlers := by
  obtain ⟨config, hmerge, rfl⟩ := Option.map_eq_some_iff.mp h
  refine ⟨config, hmerge, ?_, ?_, ?_, ?_⟩
  · simp [save]
  · simp [save]
  · cases hfile : m.file with
    | none => simp [save, loadFromFile]
    | some text => simp [save, loadFromFile]
  · simp [save]

/-! ### DiffAndNotify -/

/-- A handler is called. -/
def give (m : HotReloadManager ν) (call : ℕ × ν) : HotReloadManager ν :=
  { m with sectionHandlers := m.sectionHandlers.modify call.1 ({ · with given := call.2 }) }

/-- Handlers are called; nothing else changes. -/
theorem foldl_give (calls : List (ℕ × ν)) (m : HotReloadManager ν) :
    (calls.foldl give m).currentConfig = m.currentConfig ∧ (calls.foldl give m).file = m.file ∧
      (calls.foldl give m).managed = m.managed := by
  induction calls generalizing m with
  | nil => exact ⟨rfl, rfl, rfl⟩
  | cons call calls ih => exact ih (m.give call)

variable [DecidableEq ν]

/-- The sections that are new or other than before, and those that are gone. -/
def changedSections (oldConfig newConfig : Document ν) : List String :=
  (newConfig.items.filter fun item => oldConfig.member item.1 ≠ some item.2).map (·.1) ++
    (oldConfig.items.filter fun item => !newConfig.contains item.1).map (·.1)

/-- What a handler of a section is given. -/
def sectionCfg (config : Document ν) (key : String) : ν := (config.member key).getD null

/-- The calls of handlers: which one, and with what. -/
def notifications (handlers : List (SectionEntry ν)) (oldConfig newConfig : Document ν) :
    List (ℕ × ν) :=
  (changedSections oldConfig newConfig).flatMap fun key =>
    (handlers.zipIdx.filter fun entry => entry.1.key = key).map fun entry =>
      (entry.2, sectionCfg null newConfig key)

def diffAndNotify (oldConfig newConfig : Document ν) (m : HotReloadManager ν) :
    HotReloadManager ν :=
  (notifications null m.sectionHandlers oldConfig newConfig).foldl give m

/-! ### The calls -/

def applyPatch (patch : Document ν) (m : HotReloadManager ν) : Option (HotReloadManager ν) :=
  (mergePatch patch m).map fun m' => diffAndNotify null m.currentConfig m'.currentConfig m'

def onFileChanged (m : HotReloadManager ν) : HotReloadManager ν :=
  match m.file with
  | none => m
  | some newConfig =>
      diffAndNotify null m.currentConfig newConfig
        (loadFromFile { m with currentConfig := newConfig }).1

/-- The manager as it is started, with handlers that know their sections. -/
def start (config : Document ν) (file : Option (Document ν)) (sections : List String) :
    HotReloadManager ν where
  currentConfig := config
  sectionHandlers := sections.map fun key => ⟨key, sectionCfg null config key⟩
  file := file
  managed := config

/-! ### Which handlers are called -/

section
variable {null} {handlers : List (SectionEntry ν)} {oldConfig newConfig : Document ν}

/-- A section is new, or has another value. -/
def Appears (oldConfig newConfig : Document ν) (key : String) : Prop :=
  ∃ value, newConfig.items.lookup key = some value ∧ oldConfig.member key ≠ some value

/-- A section is gone. -/
def Disappears (oldConfig newConfig : Document ν) (key : String) : Prop :=
  (∃ value, oldConfig.items.lookup key = some value) ∧ newConfig.member key = none

theorem mem_appearing {key : String} :
    key ∈ (newConfig.items.filter fun item => oldConfig.member item.1 ≠ some item.2).map (·.1) ↔
      Appears oldConfig newConfig key := by
  simp only [Document.mem_keys_filter, decide_eq_true_eq, Appears]

omit [DecidableEq ν] in
theorem mem_disappearing {key : String} :
    key ∈ (oldConfig.items.filter fun item => !newConfig.contains item.1).map (·.1) ↔
      Disappears oldConfig newConfig key := by
  simp only [Document.mem_keys_filter, Document.contains, Bool.not_eq_true',
    Option.isSome_eq_false_iff, Option.isNone_iff_eq_none, Disappears, exists_and_right]

theorem mem_changedSections {key : String} :
    key ∈ changedSections oldConfig newConfig ↔
      Appears oldConfig newConfig key ∨ Disappears oldConfig newConfig key := by
  rw [changedSections, List.mem_append, mem_appearing, mem_disappearing]

open Classical in
/-- How often a section is among the changed ones. -/
theorem count_changedSections (key : String) :
    (changedSections oldConfig newConfig).count key =
      (if Appears oldConfig newConfig key then 1 else 0) +
        if Disappears oldConfig newConfig key then 1 else 0 := by
  rw [changedSections, List.count_append, Document.count_keys_filter, Document.count_keys_filter]
  exact congrArg₂ _ (if_congr mem_appearing rfl rfl) (if_congr mem_disappearing rfl rfl)

theorem changed_of_ne {key : String} (h : oldConfig.member key ≠ newConfig.member key) :
    key ∈ changedSections oldConfig newConfig := by
  rw [mem_changedSections]
  cases hnew : newConfig.member key with
  | some value =>
      rw [hnew] at h
      exact .inl ⟨value, Document.lookup_of_member hnew, h⟩
  | none =>
      rw [hnew] at h
      obtain ⟨value, hold⟩ := Option.ne_none_iff_exists'.mp h
      exact .inr ⟨⟨value, Document.lookup_of_member hold⟩, hnew⟩

/-- **A handler whose section is other than before is called**, and each call gives the value of the
new configuration. -/
theorem mem_notifications {i : ℕ} {value : ν} :
    (i, value) ∈ notifications null handlers oldConfig newConfig ↔
      ∃ entry, handlers[i]? = some entry ∧
        entry.key ∈ changedSections oldConfig newConfig ∧
          value = sectionCfg null newConfig entry.key := by
  simp only [notifications, List.mem_flatMap, List.mem_map, List.mem_filter, decide_eq_true_eq,
    Prod.mk.injEq]
  constructor
  · rintro ⟨key, hkey, ⟨entry, j⟩, ⟨hmem, rfl⟩, rfl, rfl⟩
    exact ⟨entry, List.mk_mem_zipIdx_iff_getElem?.mp hmem, hkey, rfl⟩
  · rintro ⟨entry, hentry, hkey, rfl⟩
    exact ⟨entry.key, hkey, (entry, i), ⟨List.mk_mem_zipIdx_iff_getElem?.mpr hentry, rfl⟩, rfl, rfl⟩

/-- **A handler is called as often as its section is among the changed ones.** -/
theorem count_notifications {i : ℕ} {entry : SectionEntry ν} (h : handlers[i]? = some entry) :
    ((notifications null handlers oldConfig newConfig).map (·.1)).count i =
      (changedSections oldConfig newConfig).count entry.key := by
  have hone : ∀ key, ((handlers.zipIdx.filter fun e => e.1.key = key).map (·.2)).count i =
      if entry.key = key then 1 else 0 := by
    intro key
    have hnodup : ((handlers.zipIdx.filter fun e => e.1.key = key).map (·.2)).Nodup := by
      refine List.Nodup.sublist (List.filter_sublist.map _) ?_
      rw [List.zipIdx_map_snd]
      exact List.nodup_range'
    rw [hnodup.count]
    refine if_congr ?_ rfl rfl
    simp only [List.mem_map, List.mem_filter, decide_eq_true_eq]
    constructor
    · rintro ⟨⟨entry', j⟩, ⟨hmem, rfl⟩, rfl⟩
      rw [List.mk_mem_zipIdx_iff_getElem?.mp hmem] at h
      rw [Option.some.inj h]
    · rintro rfl
      exact ⟨(entry, i), ⟨List.mk_mem_zipIdx_iff_getElem?.mpr h, rfl⟩, rfl⟩
  rw [notifications]
  induction changedSections oldConfig newConfig with
  | nil => rfl
  | cons key keys ih =>
      rw [List.flatMap_cons, List.map_append, List.count_append, ih, List.map_map, List.count_cons,
        Nat.add_comm]
      exact congrArg _ ((hone key).trans (if_congr (eq_comm.trans beq_iff_eq.symm) rfl rfl))

end

end HotReloadManager

end LoongNvr.Core

/-! ### The three copies

The three copies of the configuration after each call, with calls one after another and the file
changed from outside in between.  `ApplyPatch` lets `ConfigManager` load the file before it writes
the merged configuration into it.
-/

namespace LoongNvr.Core.HotReloadManager
open Support

variable {ν : Type*}

/-- The manager, `ConfigManager` and the file have the same configuration. -/
structure Agree (m : HotReloadManager ν) : Prop where
  managed : m.managed = m.currentConfig
  file : m.file = some m.currentConfig

/-- A call, or a change of the file from outside: to a configuration, or to what is no JSON. -/
inductive ConfigAction (ν : Type*)
  | applyPatch (patch : Document ν)
  | onFileChanged
  | edit (text : Option (Document ν))

variable [DecidableEq ν] (null : ν)

/-- A call that throws leaves the manager as it was. -/
def configStep (m : HotReloadManager ν) : ConfigAction ν → HotReloadManager ν
  | .applyPatch patch => (applyPatch null patch m).getD m
  | .onFileChanged => onFileChanged null m
  | .edit text => { m with file := text }

/-- If the file is JSON, the copies agree when the call returns, and each key of a patch has its
value, the others what they had. -/
def Returned (m : HotReloadManager ν) : ConfigAction ν → Prop
  | .applyPatch patch => m.file ≠ none → ∀ m', applyPatch null patch m = some m' →
      Agree m' ∧ ∀ key,
        m'.currentConfig.member key = (patch.items.lookup key).or (m.currentConfig.member key)
  | .onFileChanged => m.file ≠ none → Agree (onFileChanged null m)
  | .edit _ => True

/-- The file has what a patch makes of the configuration. -/
def Saved (m : HotReloadManager ν) : ConfigAction ν → Prop
  | .applyPatch patch => ∀ text config, m.file = some text →
      patch.merge m.currentConfig = some config → text = config
  | _ => True

/-! ### One call -/

variable {null} {m m' : HotReloadManager ν} {patch : Document ν}

theorem agree_diffAndNotify {oldConfig newConfig : Document ν} :
    Agree (diffAndNotify null oldConfig newConfig m) ↔ Agree m := by
  obtain ⟨hcurrent, hfile, hmanaged⟩ :=
    foldl_give (notifications null m.sectionHandlers oldConfig newConfig) m
  rw [diffAndNotify]
  constructor
  · rintro ⟨hm, hf⟩
    exact ⟨by rw [← hmanaged, ← hcurrent]; exact hm, by rw [← hfile, ← hcurrent]; exact hf⟩
  · rintro ⟨hm, hf⟩
    exact ⟨by rw [hmanaged, hcurrent]; exact hm, by rw [hfile, hcurrent]; exact hf⟩

/-- **After a patch** the manager and the file have the merged configuration, and `ConfigManager`
what the file had. -/
theorem agree_applyPatch {text config : Document ν} (hfile : m.file = some text)
    (hmerge : patch.merge m.currentConfig = some config) (h : applyPatch null patch m = some m') :
    m'.currentConfig = config ∧ (Agree m' ↔ text = config) := by
  obtain ⟨m₁, hm₁, rfl⟩ := Option.map_eq_some_iff.mp h
  obtain ⟨config', hmerge', hcurrent, hsaved, hmanaged, -⟩ := mergePatch_eq_some hm₁
  obtain rfl := Option.some.inj (hmerge.symm.trans hmerge')
  refine ⟨(foldl_give _ m₁).1.trans hcurrent, ?_⟩
  rw [agree_diffAndNotify]
  rw [hfile, Option.getD_some] at hmanaged
  constructor
  · intro hagree
    exact (hmanaged.symm.trans hagree.managed).trans hcurrent
  · rintro rfl
    exact ⟨hmanaged.trans hcurrent.symm, hsaved.trans (congrArg some hcurrent.symm)⟩

/-- **A change of the file** brings the copies together, whatever they were. -/
theorem agree_onFileChanged (null : ν) {text : Document ν} (hfile : m.file = some text) :
    Agree (onFileChanged null m) := by
  rw [onFileChanged, hfile]
  exact agree_diffAndNotify.mpr ⟨rfl, rfl⟩

theorem returned_iff (null : ν) (m : HotReloadManager ν) (a : ConfigAction ν) :
    Returned null m a ↔ Saved m a := by
  cases a with
  | applyPatch patch =>
      constructor
      · intro h text config hfile hmerge
        have hreturns : applyPatch null patch m ≠ none := by
          simp [applyPatch, mergePatch, hmerge]
        obtain ⟨m', hm'⟩ := Option.ne_none_iff_exists'.mp hreturns
        exact (agree_applyPatch hfile hmerge hm').2.mp (h (by simp [hfile]) m' hm').1
      · intro h hjson m' hm'
        obtain ⟨text, hfile⟩ := Option.ne_none_iff_exists'.mp hjson
        obtain ⟨m₁, hm₁, -⟩ := Option.map_eq_some_iff.mp hm'
        obtain ⟨config, hmerge, -⟩ := mergePatch_eq_some hm₁
        obtain ⟨hcurrent, hagree⟩ := agree_applyPatch hfile hmerge hm'
        exact ⟨hagree.mpr (h text config hfile hmerge), fun key => by
          rw [hcurrent, Document.member_merge hmerge]⟩
  | onFileChanged =>
      refine iff_of_true (fun hjson => ?_) trivial
      obtain ⟨text, hfile⟩ := Option.ne_none_iff_exists'.mp hjson
      exact agree_onFileChanged null hfile
  | edit text => exact Iff.rfl

/-! ### Every run -/

/-- **The copies agree whenever a call returns exactly if each patch finds in the file what it makes
of the configuration.** -/
theorem copiesAgree_iff (null : ν) (m : HotReloadManager ν) (as : List (ConfigAction ν)) :
    EveryStep (configStep null) (Returned null) m as ↔ EveryStep (configStep null) Saved m as := by
  constructor
  · intro h
    exact h.of_invariant (I := fun _ => True) (fun _ _ _ _ => trivial)
      (fun s a _ => (returned_iff null s a).mp) trivial
  · intro h
    exact h.of_invariant (I := fun _ => True) (fun _ _ _ _ => trivial)
      (fun s a _ => (returned_iff null s a).mpr) trivial

/-- **Where the copies agree, a patch leaves them so exactly if it changes nothing.** -/
theorem agree_applyPatch_iff (hagree : Agree m) (h : applyPatch null patch m = some m') :
    Agree m' ↔ m'.currentConfig = m.currentConfig := by
  obtain ⟨m₁, hm₁, -⟩ := Option.map_eq_some_iff.mp h
  obtain ⟨config, hmerge, -⟩ := mergePatch_eq_some hm₁
  obtain ⟨hcurrent, hiff⟩ := agree_applyPatch hagree.file hmerge h
  rw [hiff, hcurrent, eq_comm]

/-- A patch of one section of an empty configuration. -/
def patchHls : Document ℕ := .object (Std.ExtTreeMap.insert ∅ "hls" 1)

/-- `ConfigManager` is left with the empty configuration. -/
theorem agree_refuted :
    ¬ EveryStep (configStep 0) (Returned 0)
      (start 0 (.object ∅) (some (.object ∅)) []) [.applyPatch patchHls] := by
  intro h
  have hagree := (h.1 (by decide) _ rfl).1.managed
  exact absurd hagree (by decide +kernel)

end LoongNvr.Core.HotReloadManager
