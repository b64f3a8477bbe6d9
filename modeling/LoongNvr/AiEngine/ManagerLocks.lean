import LoongNvr.AiEngine.ModelManager
import LoongNvr.Storage.CloudBackup
import LoongNvr.Support.Guarded
import LoongNvr.Support.Runs
import Mathlib.Data.List.Infix

/-!
# AI engine — ManagerLocks

The calls of `ModelManager` with the mutex they lock, as one thread makes them.

* `createEngineOn_eq`: with a backend name, `CreateEngine` does what `ModelManager.createEngine`
  says.
* `createEngine_registered`: without one, it waits for itself where the model is registered: it
  calls the other under the lock.
* `neverBlocks_iff`: a run of calls gets through exactly when that does not happen.
-/

namespace LoongNvr.AiEngine
open Support Guarded LoongNvr.Storage

/-- An entry of a directory. -/
structure DirectoryEntry where
  name : EntryName
  isRegularFile : Bool
  deriving DecidableEq

namespace LockedManager

/-- `ModelManager::DetectFamily` -/
def detectFamily (filename : List Char) : String :=
  let lower := filename.map Char.toLower
  if "yolov11".toList <:+: lower then "yolov11"
  else if "yolov10".toList <:+: lower then "yolov10"
  else if "yolov9".toList <:+: lower then "yolov9"
  else if "yolov8".toList <:+: lower then "yolov8"
  else if "yolov7".toList <:+: lower then "yolov7"
  else if "yolov5".toList <:+: lower then "yolov5"
  else if "yolo".toList <:+: lower then "yolov8"
  else ""

/-- `ModelManager::DetectBackend` -/
def detectBackend (filename : List Char) : String :=
  let lower := filename.map Char.toLower
  if ".onnx".toList <:+: lower then "onnxruntime"
  else if ".engine".toList <:+: lower then "tensorrt"
  else if ".trt".toList <:+: lower then "tensorrt"
  else if ".xml".toList <:+: lower then "opencv_dnn"
  else "opencv_dnn"

/-- `path().stem()` -/
def stem (name : EntryName) : List Char :=
  name.chars.take (name.chars.length - (extension name).length)

/-- A regular file with the extension of a model. -/
def isModelFile (entry : DirectoryEntry) : Bool :=
  entry.isRegularFile &&
    [".onnx".toList, ".engine".toList, ".trt".toList, ".xml".toList].contains
      (extension entry.name)

/-- The model that a file is registered as. -/
def detectedModel (directory : List Char) (name : EntryName) : ModelInfo where
  name := String.ofList (stem name)
  family := detectFamily name.chars
  modelPath := String.ofList (joinPath directory name)
  backend := detectBackend name.chars
  inputShape := [1, 3, 640, 640]
  classNames := []

/-! ### The calls -/

/-- `RegisterModel` -/
def registerModel (info : ModelInfo) : Guarded ModelManager Bool :=
  locked fun m => ((m.registerModel info).2, (m.registerModel info).1)

/-- `UnregisterModel` -/
def unregisterModel (modelName : String) : Guarded ModelManager Bool :=
  locked fun m => ((m.unregisterModel modelName).2, (m.unregisterModel modelName).1)

/-- `GetModelInfo` -/
def getModelInfo (modelName : String) : Guarded ModelManager (Option ModelInfo) :=
  locked fun m => (m.getModelInfo modelName, m)

/-- `ListModels` -/
def listModels : Guarded ModelManager (List ModelInfo) := locked fun m => (m.models, m)

/-- `HasModel` -/
def hasModel (modelName : String) : Guarded ModelManager Bool :=
  locked fun m => (m.hasModel modelName, m)

/-- `ModelCount` -/
def modelCount : Guarded ModelManager ℕ := locked fun m => (m.models.length, m)

/-- The loop of `ScanDirectory`: whether the name is taken is looked up in a section of its own. -/
def scanEntries (directory : List Char) : List DirectoryEntry → ℕ → Guarded ModelManager ℕ
  | [], count => pure count
  | entry :: entries, count =>
      if !isModelFile entry then scanEntries directory entries count
      else do
        let registered ← locked fun m => (m.hasModel (String.ofList (stem entry.name)), m)
        if registered then scanEntries directory entries count
        else
          let info := detectedModel directory entry.name
          if info.family.isEmpty then scanEntries directory entries count
          else do
            let added ← registerModel info
            scanEntries directory entries (if added then count + 1 else count)

/-- `ScanDirectory`, on what is in the directory, if it is one. -/
def scanDirectory (directory : List Char) :
    Option (List DirectoryEntry) → Guarded ModelManager ℕ
  | none => pure 0
  | some entries => scanEntries directory entries 0

/-- `CreateEngine` with a backend name. -/
def createEngineOn (load : BackendLoader) (modelName backendName : String) :
    Guarded ModelManager (Option Engine) := do
  let found ← locked fun m => (m.getModelInfo modelName, m)
  match found with
  | none => pure none
  | some info =>
      let effectiveBackend := if backendName.isEmpty then info.backend else backendName
      match load effectiveBackend info.modelPath with
      | none => pure none
      | some loaded =>
          let engine := match adapterClass info.family with
            | .yolo version => .yolo (engineOf version loaded)
            | adapter => .other adapter loaded
          locked fun m => (some engine, m.markLoaded modelName)

/-- `CreateEngine` without one: the call of the other is under the lock. -/
def createEngine (load : BackendLoader) (modelName : String) :
    Guarded ModelManager (Option Engine) :=
  holding do
    let found ← access fun m => (m.getModelInfo modelName, m)
    match found with
    | none => pure none
    | some info => createEngineOn load modelName info.backend

/-! ### What a call does -/

theorem returns_scanEntries (directory : List Char) (entries : List DirectoryEntry) (count : ℕ) :
    Returns (scanEntries directory entries count) := by
  induction entries generalizing count with
  | nil => exact returns_pure count
  | cons entry entries ih =>
      rw [scanEntries]
      split
      · exact ih count
      · refine returns_bind (returns_locked _) fun registered => ?_
        split
        · exact ih count
        · dsimp only
          split
          · exact ih count
          · exact returns_bind (returns_locked _) fun added => ih _

theorem returns_scanDirectory (directory : List Char) (entries : Option (List DirectoryEntry)) :
    Returns (scanDirectory directory entries) := by
  cases entries with
  | none => exact returns_pure 0
  | some entries => exact returns_scanEntries directory entries 0

/-- **With a backend name** the call does what `ModelManager.createEngine` says. -/
theorem createEngineOn_eq (load : BackendLoader) (modelName backendName : String)
    (m : ModelManager) :
    createEngineOn load modelName backendName ⟨m, false⟩ =
      some ((m.createEngine load modelName backendName).2,
        ⟨(m.createEngine load modelName backendName).1, false⟩) := by
  rw [createEngineOn, locked_bind, ModelManager.createEngine]
  cases m.getModelInfo modelName with
  | none => rfl
  | some info =>
      dsimp only
      cases load (if backendName.isEmpty then info.backend else backendName) info.modelPath with
      | none => rfl
      | some loaded =>
          dsimp only
          rw [locked_free]
          cases adapterClass info.family <;> rfl

/-- Under the lock the call does not get through. -/
theorem createEngineOn_held (load : BackendLoader) (modelName backendName : String)
    (m : ModelManager) : createEngineOn load modelName backendName ⟨m, true⟩ = none := by
  rw [createEngineOn, locked_bind_held]

/-- The critical section of the call without a backend name. -/
theorem createEngine_eq (load : BackendLoader) (modelName : String) (m : ModelManager) :
    createEngine load modelName ⟨m, false⟩ =
      match m.getModelInfo modelName with
      | none => some (none, ⟨m, false⟩)
      | some _ => none := by
  rw [createEngine, holding_free, access_bind]
  dsimp only
  cases m.getModelInfo modelName with
  | none => rfl
  | some info =>
      dsimp only
      rw [createEngineOn_held, Option.map_none]

theorem getModelInfo_eq_none {modelName : String} {m : ModelManager}
    (h : m.hasModel modelName = false) : m.getModelInfo modelName = none :=
  Option.isNone_iff_eq_none.mp (Option.isSome_eq_false_iff.mp h)

theorem createEngine_registered (load : BackendLoader) {modelName : String} {m : ModelManager}
    (h : m.hasModel modelName = true) : createEngine load modelName ⟨m, false⟩ = none := by
  obtain ⟨info, hinfo⟩ := Option.isSome_iff_exists.mp h
  rw [createEngine_eq, hinfo]

theorem createEngine_unregistered (load : BackendLoader) {modelName : String} {m : ModelManager}
    (h : m.hasModel modelName = false) :
    createEngine load modelName ⟨m, false⟩ = some (none, ⟨m, false⟩) := by
  rw [createEngine_eq, getModelInfo_eq_none h]

end LockedManager

/-! ### Runs of calls -/

/-- A call, with what the file system or the backends answer. -/
inductive ManagerCall
  | registerModel (info : ModelInfo)
  | unregisterModel (modelName : String)
  | scanDirectory (directory : List Char) (entries : Option (List DirectoryEntry))
  | createEngine (modelName : String) (load : BackendLoader)
  | createEngineOn (modelName backendName : String) (load : BackendLoader)
  | getModelInfo (modelName : String)
  | listModels
  | hasModel (modelName : String)
  | modelCount

namespace ManagerCall

open LockedManager

/-- What the call does, whatever it returns. -/
def exec : ManagerCall → Guarded ModelManager Unit
  | .registerModel info => ignore (LockedManager.registerModel info)
  | .unregisterModel modelName => ignore (LockedManager.unregisterModel modelName)
  | .scanDirectory directory entries => ignore (LockedManager.scanDirectory directory entries)
  | .createEngine modelName load => ignore (LockedManager.createEngine load modelName)
  | .createEngineOn modelName backendName load =>
      ignore (LockedManager.createEngineOn load modelName backendName)
  | .getModelInfo modelName => ignore (LockedManager.getModelInfo modelName)
  | .listModels => ignore LockedManager.listModels
  | .hasModel modelName => ignore (LockedManager.hasModel modelName)
  | .modelCount => ignore LockedManager.modelCount

/-- The registry after a call; `none` once the thread waits for itself. -/
def step (s : Option ModelManager) (call : ManagerCall) : Option ModelManager :=
  s.bind fun m => (call.exec ⟨m, false⟩).map (·.2.state)

/-- Without an engine the registry is as before; with one the model has its mark. -/
def OnlyMarks (modelName : String) (m : ModelManager)
    (outcome : Option (Option Engine × Mutexed ModelManager)) : Prop :=
  ∀ result ∈ outcome,
    (result.1 = none → result.2.state = m) ∧
      (result.1 ≠ none → m.hasModel modelName = true ∧ result.2.state = m.markLoaded modelName)

/-- What is right for a call in a state of the registry. -/
def Right : Option ModelManager → ManagerCall → Prop
  | some m, .createEngine modelName load =>
      LockedManager.createEngine load modelName ⟨m, false⟩ =
          LockedManager.createEngineOn load modelName "" ⟨m, false⟩ ∧
        OnlyMarks modelName m (LockedManager.createEngine load modelName ⟨m, false⟩)
  | some m, .createEngineOn modelName backendName load =>
      OnlyMarks modelName m (LockedManager.createEngineOn load modelName backendName ⟨m, false⟩)
  | _, _ => True

/-- **No call blocks itself**: the thread never waits for itself, and every call is right. -/
def NeverBlocks (m : ModelManager) (calls : List ManagerCall) : Prop :=
  Along step (fun s => s.isSome = true) (some m) calls ∧ EveryStep step Right (some m) calls

/-- The call is not `CreateEngine` of a registered model without a backend name. -/
def Unnested : Option ModelManager → ManagerCall → Prop
  | some m, .createEngine modelName _ => m.hasModel modelName = false
  | _, _ => True

/-- **A call gets through** exactly if it is not nested. -/
theorem step_isSome_iff {m : ModelManager} {call : ManagerCall} :
    (step (some m) call).isSome = true ↔ Unnested (some m) call := by
  cases call with
  | createEngine modelName load =>
      cases h : m.hasModel modelName with
      | true => simp [step, exec, ignore_eq, createEngine_registered load h, Unnested, h]
      | false => simp [step, exec, ignore_eq, createEngine_unregistered load h, Unnested, h]
  | createEngineOn modelName backendName load =>
      simp [step, exec, ignore_eq, createEngineOn_eq, Unnested]
  | scanDirectory directory entries =>
      obtain ⟨count, m', h⟩ := returns_scanDirectory directory entries m
      simp [step, exec, ignore_eq, h, Unnested]
  | registerModel info | unregisterModel modelName | getModelInfo modelName | hasModel modelName
  | listModels | modelCount => exact iff_of_true rfl trivial

/-- What `ModelManager.createEngine` does to the registry. -/
theorem onlyMarks_createEngineOn (load : BackendLoader) (modelName backendName : String)
    (m : ModelManager) :
    OnlyMarks modelName m (LockedManager.createEngineOn load modelName backendName ⟨m, false⟩) := by
  rw [createEngineOn_eq]
  rintro result hresult
  obtain rfl := Option.some.inj hresult
  rw [ModelManager.createEngine]
  cases hinfo : m.getModelInfo modelName with
  | none => simp
  | some info =>
      have hmodel : m.hasModel modelName = true := by rw [ModelManager.hasModel, hinfo]; rfl
      dsimp only
      cases load (if backendName.isEmpty then info.backend else backendName) info.modelPath with
      | none => simp
      | some loaded => cases adapterClass info.family <;> simp [hmodel]

theorem right_of_unnested {s : Option ModelManager} {call : ManagerCall} (h : Unnested s call) :
    Right s call := by
  cases s with
  | none => trivial
  | some m =>
      cases call with
      | createEngine modelName load =>
          have hsame : LockedManager.createEngine load modelName ⟨m, false⟩ =
              LockedManager.createEngineOn load modelName "" ⟨m, false⟩ := by
            rw [createEngine_unregistered load h, createEngineOn_eq, ModelManager.createEngine,
              getModelInfo_eq_none h]
          exact ⟨hsame, hsame ▸ onlyMarks_createEngineOn load modelName "" m⟩
      | createEngineOn modelName backendName load => exact onlyMarks_createEngineOn load _ _ m
      | _ => trivial

/-- **A run of calls gets through exactly** when it nowhere makes an engine of a registered model
without naming the backend. -/
theorem neverBlocks_iff (m : ModelManager) (calls : List ManagerCall) :
    NeverBlocks m calls ↔ EveryStep step Unnested (some m) calls := by
  have halong : Along step (fun s => s.isSome = true) (some m) calls ↔
      EveryStep step Unnested (some m) calls := by
    refine along_iff_everyStep (fun s call hs => ?_) rfl
    obtain ⟨m, rfl⟩ := Option.isSome_iff_exists.mp hs
    exact step_isSome_iff
  have hright : EveryStep step Unnested (some m) calls → EveryStep step Right (some m) calls :=
    EveryStep.of_invariant (I := fun _ => True) (fun _ _ _ _ => trivial)
      (fun _ _ _ h => right_of_unnested h) trivial
  rw [NeverBlocks, halong]
  exact and_iff_left_of_imp hright

/-- A model that is registered. -/
def registeredModel : ModelInfo where
  name := "yolov8n-640"
  family := "yolov8"
  modelPath := "/models/yolov8n-640.onnx"
  backend := "onnxruntime"
  inputShape := [1, 3, 640, 640]
  classNames := []

/-- Its engine is never made. -/
theorem not_neverBlocks :
    ¬ NeverBlocks .empty
      [.registerModel registeredModel, .createEngine "yolov8n-640" fun _ _ => none] := by
  intro h
  exact absurd h.1.last (by decide)

end ManagerCall

end LoongNvr.AiEngine
