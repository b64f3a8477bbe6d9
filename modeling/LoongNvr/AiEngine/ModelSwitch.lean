import LoongNvr.AiEngine.InferenceEngine
import LoongNvr.Support.Emitted
import Mathlib.Data.List.Induction

/-!
# AI engine — ModelSwitch

`InferenceEngine` under calls of `Infer`, `InferBatch` and `SwitchModel` in any order, each under
the engine's mutex.  What loading a model comes to is an input.

* `switchModel`: the old model is unloaded before the new one is known to load.
* `later`: what the engine answers after a history of calls.
* `paired`: a model only works with the adapter it came with.
* `atomic_iff`: a switch takes the engine to the new model and adapter or changes nothing, exactly
  where it succeeds or finds no model loaded.
-/

namespace LoongNvr.AiEngine
open LoongNvr.Core Support YoloAdapter

/-- A backend after `Unload` and `LoadModel`, which returns whether it has loaded the model. -/
structure Loading where
  backend : InferenceBackend
  ok : Bool
  isLoaded_eq : backend.isLoaded = ok

/-- The calls of an engine. -/
inductive EngineCall
  | infer (image : Image) (confidenceThreshold : ℚ)
  | inferBatch (images : List Image) (confidenceThreshold : ℚ)
  | switchModel (load : Loading) (newAdapter : YoloAdapter)

/-- What they answer. -/
inductive EngineAnswer
  | detections (r : Option (List Detection))
  | batch (r : Option (List (List Detection)))
  | switched (ok : Bool)

/-- The call leaves the model as it is. -/
def EngineCall.Asks : EngineCall → Prop
  | .switchModel _ _ => False
  | _ => True

namespace InferenceEngine

/-- `InferenceEngine::SwitchModel` -/
def switchModel (engine : InferenceEngine) (load : Loading) (newAdapter : YoloAdapter) :
    InferenceEngine × Bool :=
  if load.ok then ({ backend := load.backend, adapter := newAdapter }, true)
  else ({ engine with backend := load.backend }, false) -- the old adapter, and no model

variable (cv : OpenCv) (srt : DetectionSorter)

/-- One call, and its answer. -/
def call (engine : InferenceEngine) : EngineCall → InferenceEngine × List EngineAnswer
  | .infer image confidenceThreshold =>
      let (engine, r) := engine.infer cv srt image confidenceThreshold
      (engine, [.detections r])
  | .inferBatch images confidenceThreshold =>
      let (engine, r) := engine.inferBatch cv srt images confidenceThreshold
      (engine, [.batch r])
  | .switchModel load newAdapter =>
      let (engine, ok) := engine.switchModel load newAdapter
      (engine, [.switched ok])

/-- The engine after a history of calls. -/
def after (engine : InferenceEngine) (calls : List EngineCall) : InferenceEngine :=
  calls.foldl (silent (call cv srt)) engine

/-- What it answers to the calls that follow. -/
def later (engine : InferenceEngine) (before calls : List EngineCall) : List EngineAnswer :=
  emitted (call cv srt) (engine.after cv srt before) calls

/-! ### Switches that are atomic -/

/-- A model and an adapter that the engine had at first, or that came in one switch. -/
def Given (engine : InferenceEngine) (calls : List EngineCall) (backend : InferenceBackend)
    (adapter : YoloAdapter) : Prop :=
  backend = engine.backend ∧ adapter = engine.adapter ∨
    ∃ load, .switchModel load adapter ∈ calls ∧ load.ok = true ∧ backend = load.backend

/-- After a history of calls, a switch that fails changes no later answer; one that succeeds has
every later call answered by the new model with the new adapter; and a model that is loaded came
with its adapter. -/
structure AtomicSwitch (engine : InferenceEngine) (before : List EngineCall) (load : Loading)
    (newAdapter : YoloAdapter) : Prop where
  failed : load.ok = false → ∀ calls,
    engine.later cv srt (before ++ [.switchModel load newAdapter]) calls =
      engine.later cv srt before calls
  succeeded : load.ok = true → ∀ calls : List EngineCall, (∀ c ∈ calls, c.Asks) →
    engine.later cv srt (before ++ [.switchModel load newAdapter]) calls =
      calls.flatMap fun c =>
        (call cv srt { backend := load.backend, adapter := newAdapter } c).2
  paired :
    let engine' := engine.after cv srt (before ++ [.switchModel load newAdapter])
    engine'.backend.isLoaded = true →
      engine.Given (before ++ [.switchModel load newAdapter]) engine'.backend engine'.adapter

/-! ### Calls that ask -/

variable {cv srt} {engine : InferenceEngine}

theorem runSingle_keeps (engine : InferenceEngine) (image : Image) (confidence nms : ℚ) :
    ∃ letterbox, (engine.runSingle cv srt image confidence nms).1 =
      { engine with letterbox := letterbox } :=
  ⟨_, congrArg Prod.fst (runSingle_eq engine image confidence nms)⟩

theorem infer_keeps (image : Image) (confidence : ℚ) :
    ∃ letterbox, (engine.infer cv srt image confidence).1 =
      { engine with letterbox := letterbox } := by
  unfold infer inferWith
  split
  · exact ⟨engine.letterbox, rfl⟩
  · exact runSingle_keeps engine image confidence engineNmsThreshold

theorem foldl_inferNext_keeps (images : List Image) (confidence nms : ℚ)
    (acc : InferenceEngine × List (List Detection)) :
    ∃ letterbox, (images.foldl (inferNext cv srt confidence nms) acc).1 =
      { acc.1 with letterbox := letterbox } := by
  induction images generalizing acc with
  | nil => exact ⟨acc.1.letterbox, rfl⟩
  | cons image images ih =>
      obtain ⟨first, hfirst⟩ : ∃ letterbox, (acc.1.runSingle cv srt image confidence nms).1 =
          { acc.1 with letterbox := letterbox } := runSingle_keeps acc.1 image confidence nms
      obtain ⟨last, hlast⟩ := ih (inferNext cv srt confidence nms acc image)
      refine ⟨last, hlast.trans ?_⟩
      rw [inferNext]
      dsimp only
      rw [hfirst]

theorem inferBatch_keeps (images : List Image) (confidence : ℚ) :
    ∃ letterbox, (engine.inferBatch cv srt images confidence).1 =
      { engine with letterbox := letterbox } := by
  unfold inferBatch inferBatchWith
  split
  · exact ⟨engine.letterbox, rfl⟩
  · split
    · exact ⟨engine.letterbox, rfl⟩
    · split
      · dsimp only
        split
        · exact ⟨_, rfl⟩
        · exact ⟨_, rfl⟩
      · exact foldl_inferNext_keeps images confidence engineNmsThreshold (engine, [])

/-- The letterbox after a batch is the last image's, whatever it was before. -/
theorem preProcessBatch_letterbox (letterbox : Letterbox) {images : List Image}
    (hne : images ≠ []) :
    ({ engine with letterbox := letterbox } : InferenceEngine).preProcessBatch cv images =
      engine.preProcessBatch cv images := by
  cases images with
  | nil => exact absurd rfl hne
  | cons image images =>
      rw [preProcessBatch, preProcessBatch, foldl_forget, foldl_forget, List.getLast?_cons]
      rfl

/-- **What `InferBatch` answers** does not depend on the letterbox left by an earlier call. -/
theorem inferBatch_letterbox (letterbox : Letterbox) (images : List Image) (confidence : ℚ) :
    (({ engine with letterbox := letterbox } : InferenceEngine).inferBatch cv srt images
      confidence).2 = (engine.inferBatch cv srt images confidence).2 := by
  unfold inferBatch inferBatchWith
  split
  · rfl
  · next hne =>
      split
      · rfl
      · split
        · have himages : images ≠ [] := fun h => hne (by rw [h]; rfl)
          rw [preProcessBatch_letterbox letterbox himages]
        · dsimp only
          rw [foldl_inferNext,
            foldl_inferNext cv srt engine images confidence engineNmsThreshold engine.letterbox []]

/-- A call that asks leaves all but the letterbox. -/
theorem call_keeps {c : EngineCall} (h : c.Asks) :
    ∃ letterbox, (engine.call cv srt c).1 = { engine with letterbox := letterbox } := by
  cases c with
  | infer image confidence => exact infer_keeps image confidence
  | inferBatch images confidence => exact inferBatch_keeps images confidence
  | switchModel load newAdapter => cases h

theorem call_letterbox {c : EngineCall} (h : c.Asks) (letterbox : Letterbox) :
    (({ engine with letterbox := letterbox } : InferenceEngine).call cv srt c).2 =
      (engine.call cv srt c).2 := by
  cases c with
  | infer image confidence =>
      exact congrArg (fun r => [EngineAnswer.detections r])
        (infer_letterbox engine letterbox image confidence)
  | inferBatch images confidence =>
      exact congrArg (fun r => [EngineAnswer.batch r])
        (inferBatch_letterbox letterbox images confidence)
  | switchModel load newAdapter => cases h

/-- **Calls that ask** are answered one by one, as an engine that was asked nothing before answers
them. -/
theorem emitted_of_asks {calls : List EngineCall} (h : ∀ c ∈ calls, c.Asks) :
    emitted (call cv srt) engine calls = calls.flatMap fun c => (engine.call cv srt c).2 := by
  have hkeep : ∀ (e : InferenceEngine) (c : EngineCall),
      (∃ letterbox, e = { engine with letterbox := letterbox }) → c.Asks →
        ∃ letterbox, silent (call cv srt) e c = { engine with letterbox := letterbox } := by
    rintro _ c ⟨letterbox, rfl⟩ hc
    obtain ⟨next, hnext⟩ : ∃ next, (call cv srt { engine with letterbox := letterbox } c).1 =
        { engine with letterbox := next } := call_keeps hc
    exact ⟨next, hnext⟩
  have hanswer : ∀ (e : InferenceEngine) (c : EngineCall),
      (∃ letterbox, e = { engine with letterbox := letterbox }) → c.Asks →
        (call cv srt e c).2 = (call cv srt engine c).2 := by
    rintro _ c ⟨letterbox, rfl⟩ hc
    exact call_letterbox hc letterbox
  exact emitted_eq_flatMap hkeep hanswer ⟨engine.letterbox, rfl⟩ h

/-! ### Switches -/

theorem after_concat (before : List EngineCall) (c : EngineCall) :
    engine.after cv srt (before ++ [c]) = (call cv srt (engine.after cv srt before) c).1 :=
  List.foldl_concat _ _ _ _

/-- Neither engine has a model loaded, or they are the same. -/
def Alike (e e' : InferenceEngine) : Prop :=
  e = e' ∨ e.backend.isLoaded = false ∧ e'.backend.isLoaded = false

theorem infer_of_unloaded (h : engine.backend.isLoaded = false) (image : Image) (confidence : ℚ) :
    engine.infer cv srt image confidence = (engine, none) := by
  rw [infer, inferWith, h]
  rfl

theorem inferBatch_of_unloaded (h : engine.backend.isLoaded = false) (images : List Image)
    (confidence : ℚ) :
    engine.inferBatch cv srt images confidence =
      (engine, if images.isEmpty then some [] else none) := by
  rw [inferBatch, inferBatchWith, h]
  split
  · rfl
  · rfl

/-- **Without a model** no call tells two engines apart. -/
theorem Alike.call {e e' : InferenceEngine} (h : Alike e e') (c : EngineCall) :
    (call cv srt e c).2 = (call cv srt e' c).2 ∧
      Alike (call cv srt e c).1 (call cv srt e' c).1 := by
  rcases h with rfl | ⟨h, h'⟩
  · exact ⟨rfl, .inl rfl⟩
  · cases c with
    | infer image confidence =>
        rw [InferenceEngine.call, InferenceEngine.call, infer_of_unloaded h, infer_of_unloaded h']
        exact ⟨rfl, .inr ⟨h, h'⟩⟩
    | inferBatch images confidence =>
        rw [InferenceEngine.call, InferenceEngine.call, inferBatch_of_unloaded h,
          inferBatch_of_unloaded h']
        exact ⟨rfl, .inr ⟨h, h'⟩⟩
    | switchModel load newAdapter =>
        dsimp only [InferenceEngine.call, switchModel]
        split
        · exact ⟨rfl, .inl rfl⟩
        · next hok =>
            have hunloaded : load.backend.isLoaded = false :=
              load.isLoaded_eq.trans (Bool.eq_false_iff.mpr hok)
            exact ⟨rfl, .inr ⟨hunloaded, hunloaded⟩⟩

theorem Alike.emitted {e e' : InferenceEngine} (h : Alike e e') (calls : List EngineCall) :
    Support.emitted (InferenceEngine.call cv srt) e calls =
      Support.emitted (InferenceEngine.call cv srt) e' calls := by
  have hout : ∀ (e e' : InferenceEngine) (c : EngineCall), Alike e e' →
      (InferenceEngine.call cv srt e c).2 = (InferenceEngine.call cv srt e' c).2 :=
    fun _ _ c h => (h.call c).1
  have hkeep : ∀ (e e' : InferenceEngine) (c : EngineCall), Alike e e' →
      Alike (silent (InferenceEngine.call cv srt) e c)
        (silent (InferenceEngine.call cv srt) e' c) :=
    fun _ _ c h => (h.call c).2
  exact emitted_eq_of_simulation hout hkeep h calls

/-- A loaded engine answers every batch that is too large for its backend. -/
theorem inferBatch_of_loaded (h : engine.backend.isLoaded = true) {images : List Image}
    (hlen : engine.backend.maxBatchSize < images.length) (hne : images ≠ []) (confidence : ℚ) :
    ∃ detections, (engine.inferBatch cv srt images confidence).2 = some detections := by
  have hempty : images.isEmpty = false := by simpa using hne
  have hnot : ¬ (engine.backend.supportsBatch ∧
      (images.length : ℤ) ≤ engine.backend.maxBatchSize) := fun hfits => by omega
  rw [inferBatch, inferBatch_sequential engine confidence engineNmsThreshold hne h hnot]
  exact ⟨_, rfl⟩

variable (cv srt) in
/-- **A loaded engine is told apart** from one without a model. -/
theorem emitted_ne_of_loaded {e e' : InferenceEngine} (h : e.backend.isLoaded = true)
    (h' : e'.backend.isLoaded = false) :
    ∃ calls, emitted (call cv srt) e' calls ≠ emitted (call cv srt) e calls := by
  have hpos : 0 < e.backend.maxBatchSize.toNat + 1 := Nat.succ_pos _
  let images := List.replicate (e.backend.maxBatchSize.toNat + 1) (blackSquare 1 Nat.one_pos)
  have hlen : e.backend.maxBatchSize < images.length := by
    rw [List.length_replicate]
    omega
  have hne : images ≠ [] := List.ne_nil_of_length_pos (by rw [List.length_replicate]; exact hpos)
  obtain ⟨detections, hloaded⟩ : ∃ detections, (e.inferBatch cv srt images 1).2 = some detections :=
    inferBatch_of_loaded h hlen hne 1
  refine ⟨[.inferBatch images 1], fun hsame => ?_⟩
  have hempty : images.isEmpty = false := by simpa using hne
  simp [Support.emitted, call, inferBatch_of_unloaded h', hloaded, hempty] at hsame

theorem Given.concat {calls : List EngineCall} {backend : InferenceBackend} {adapter : YoloAdapter}
    (h : engine.Given calls backend adapter) (c : EngineCall) :
    engine.Given (calls ++ [c]) backend adapter := by
  rcases h with hfirst | ⟨load, hmem, hload⟩
  · exact .inl hfirst
  · exact .inr ⟨load, List.mem_append_left _ hmem, hload⟩

/-- **A model only works with the adapter it came with.** -/
theorem paired (calls : List EngineCall)
    (h : (engine.after cv srt calls).backend.isLoaded = true) :
    engine.Given calls (engine.after cv srt calls).backend (engine.after cv srt calls).adapter := by
  induction calls using List.reverseRecOn with
  | nil => exact .inl ⟨rfl, rfl⟩
  | append_singleton calls c ih =>
      rw [after_concat] at h ⊢
      by_cases hasks : c.Asks
      · obtain ⟨letterbox, hcall⟩ : ∃ letterbox, (call cv srt (engine.after cv srt calls) c).1 =
            { engine.after cv srt calls with letterbox := letterbox } := call_keeps hasks
        rw [hcall] at h ⊢
        exact (ih h).concat c
      · cases c with
        | switchModel load newAdapter =>
            dsimp only [call, switchModel] at h ⊢
            split at h
            · next hok =>
                rw [if_pos hok]
                exact .inr ⟨load, List.mem_append_right _ (List.mem_singleton_self _), hok, rfl⟩
            · next hok => exact absurd (load.isLoaded_eq.symm.trans h) hok
        | _ => exact absurd trivial hasks

/-- **A switch is atomic** exactly where it succeeds or finds no model loaded. -/
theorem atomic_iff (cv : OpenCv) (srt : DetectionSorter) (engine : InferenceEngine)
    (before : List EngineCall) (load : Loading) (newAdapter : YoloAdapter) :
    AtomicSwitch cv srt engine before load newAdapter ↔
      load.ok = true ∨ (engine.after cv srt before).backend.isLoaded = false := by
  have hafter : ∀ calls, engine.later cv srt (before ++ [.switchModel load newAdapter]) calls =
      emitted (call cv srt) ((engine.after cv srt before).switchModel load newAdapter).1 calls := by
    intro calls
    rw [later, after_concat]
    rfl
  constructor
  · intro h
    cases hok : load.ok with
    | true => exact .inl rfl
    | false =>
        refine .inr (Bool.eq_false_iff.mpr fun hloaded => ?_)
        have hfails : ((engine.after cv srt before).switchModel load
            newAdapter).1.backend.isLoaded = false := by
          rw [switchModel, hok]
          exact load.isLoaded_eq.trans hok
        obtain ⟨calls, hne⟩ := emitted_ne_of_loaded cv srt hloaded hfails
        exact hne ((hafter calls).symm.trans (h.failed hok calls))
  · intro h
    refine ⟨fun hok calls => ?_, fun hok calls hasks => ?_, paired _⟩
    · have hunloaded := h.resolve_left (Bool.eq_false_iff.mp hok)
      rw [hafter]
      refine Alike.emitted (.inr ⟨?_, hunloaded⟩) calls
      rw [switchModel, hok]
      exact load.isLoaded_eq.trans hok
    · rw [hafter, switchModel, hok]
      exact emitted_of_asks hasks

/-- An engine with a model, on a backend without batches. -/
def loadedEngine : InferenceEngine where
  backend := { isLoaded := true, supportsBatch := false, maxBatchSize := 1, runInference := some }
  adapter := { version := .v8, inputSize := 640, inputSize_pos := Nat.succ_pos 639 }

/-- The new model cannot be loaded. -/
def failedLoading : Loading where
  backend := { loadedEngine.backend with isLoaded := false }
  ok := false
  isLoaded_eq := rfl

theorem atomic_refuted :
    ¬ ∀ (cv : OpenCv) (srt : DetectionSorter) (engine : InferenceEngine) (before : List EngineCall)
      (load : Loading) (newAdapter : YoloAdapter),
      AtomicSwitch cv srt engine before load newAdapter := by
  intro h
  let cv : OpenCv := ⟨fun _ _ _ _ _ _ => 0⟩
  have hatomic := h cv byConfidence loadedEngine [] failedLoading loadedEngine.adapter
  have hloaded : loadedEngine.backend.isLoaded = true := rfl
  have hfails : (loadedEngine.switchModel failedLoading loadedEngine.adapter).1.backend.isLoaded =
      false := rfl
  obtain ⟨calls, hne⟩ := emitted_ne_of_loaded cv byConfidence hloaded hfails
  exact hne (hatomic.failed rfl calls)

end InferenceEngine

end LoongNvr.AiEngine
