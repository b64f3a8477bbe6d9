import LoongNvr.Pipeline.AiStage
import LoongNvr.Support.CondVar
import LoongNvr.Support.Runs

/-!
# Pipeline — InferShutdown

`AiStage` from its start to the end of `Shutdown`: the thread that calls it and the inference
worker, one atomic step of either after the other.  The mutex is `infer_mutex_`; who holds it
follows from where the threads are.  What the worker publishes is left to `AiStage.inferWorker`.

* `InferThreads.step`: one turn of either thread.
* `submit_alone`, `inferWorker_turns`: a thread that takes its turns in a row does what
  `AiStage.processFrame` and `AiStage.inferWorker` say.
* `exclusive`: the mutex has one holder.
* `completes_iff`: the worker is never left blocked, and `Shutdown` returns, exactly where its
  notification does not come between the worker's test and its blocking.
-/

namespace LoongNvr.Pipeline
open LoongNvr.Core LoongNvr.AiEngine Support

/-- Where the thread is that calls the stage: outside, in `ProcessFrame`, in `Shutdown`, or after
it. -/
inductive CallPlace
  | idle
  | counting (frame : Frame)
  | submitting (frame : Frame)
  /-- It holds the mutex. -/
  | storing (frame : Frame)
  | notifying
  | flagging
  | waking
  | joining
  | returned

/-- Where the worker is; `absent` before the first frame. -/
inductive InferPlace
  | absent
  | loop
  | waiting (w : Waiting)
  | inferring (frame : Option Frame)
  | resting
  | exited

/-- The stage and its two threads. -/
structure InferThreads where
  stage : AiStage
  shutdownInfer : Bool := false
  caller : CallPlace := .idle
  worker : InferPlace := .absent

/-- The caller calls `ProcessFrame` or `Shutdown`, or goes on; the worker goes on, `drawn` where the
picture has been drawn on. -/
inductive InferTurn
  | processFrame (frame : Frame)
  | shutdown
  | caller
  | worker (drawn : Option Image)

/-- The caller holds the mutex. -/
def CallPlace.holds : CallPlace → Bool
  | .storing _ => true
  | _ => false

/-- `Shutdown` has sent its notification. -/
def CallPlace.Notified : CallPlace → Prop
  | .joining | .returned => True
  | _ => False

theorem CallPlace.Notified.cases {p : CallPlace} (h : p.Notified) :
    p = .joining ∨ p = .returned := by
  cases p with
  | joining => exact .inl rfl
  | returned => exact .inr rfl
  | _ => cases h

namespace InferPlace

/-- The worker holds the mutex. -/
def holds : InferPlace → Bool
  | .waiting w => w.holds
  | _ => false

/-- `infer_cv_.notify_one()` -/
def notified : InferPlace → InferPlace
  | .waiting w => .waiting w.notified
  | p => p

/-- There is nothing to join, or it has ended. -/
def joined : InferPlace → Bool
  | .absent | .exited => true
  | _ => false

end InferPlace

/-- What the worker's `Infer` leaves in the stage. -/
def AiStage.storeResult (a : AiStage) (frame : Frame) (drawn : Option Image) : AiStage :=
  match a.engine, frame.data with
  | some engine, some image =>
      match engine.infer (drawn.getD image) a.confidenceThreshold with
      | none | some [] => a
      | some (d :: dets) => { a with lastResult := { hasResult := true, detections := d :: dets } }
  | _, _ => a

namespace InferThreads

/-- `ProcessFrame` up to where it counts the frame; the first frame starts the worker. -/
def processFrame (frame : Frame) (s : InferThreads) : InferThreads :=
  match s.caller, frame.type with
  | .idle, .raw =>
      if s.stage.engine.isSome && s.stage.cascade.isEmpty then
        { s with
          caller := .counting (s.stage.withLastResult frame)
          worker := match s.worker with | .absent => .loop | p => p }
      else s
  | _, _ => s

def shutdown (s : InferThreads) : InferThreads :=
  match s.caller with
  | .idle => { s with caller := .flagging }
  | _ => s

/-- The caller's next step. -/
def callerTurn (s : InferThreads) : InferThreads :=
  match s.caller with
  | .idle | .returned => s
  | .counting frame =>
      let counted := { s.stage with frameCounter := s.stage.frameCounter + 1 }
      if s.stage.submits then
        { s with stage := { counted with inferRunning := true }, caller := .submitting frame }
      else { s with stage := counted, caller := .idle }
  | .submitting frame => if s.worker.holds then s else { s with caller := .storing frame }
  | .storing frame =>
      { s with stage := { s.stage with pendingFrame := some frame }, caller := .notifying }
  | .notifying => { s with worker := s.worker.notified, caller := .idle }
  | .flagging => { s with shutdownInfer := true, caller := .waking }
  | .waking => { s with worker := s.worker.notified, caller := .joining }
  | .joining =>
      if s.worker.joined then
        { s with stage := { s.stage with engine := none, cascade := [] }, caller := .returned }
      else s

/-- The predicate of the wait. -/
def ready (s : InferThreads) : Bool := s.stage.pendingFrame.isSome || s.shutdownInfer

/-- The worker's next step. -/
def workerTurn (drawn : Option Image) (s : InferThreads) : InferThreads :=
  match s.worker with
  | .absent | .exited => s
  | .loop => { s with worker := if s.shutdownInfer then .exited else .waiting .locking }
  | .waiting .past =>
      if s.shutdownInfer then { s with worker := .exited }
      else
        { s with
          stage := { s.stage with pendingFrame := none }
          worker := .inferring s.stage.pendingFrame }
  | .waiting w => { s with worker := .waiting (w.turn (!s.caller.holds) s.ready) }
  | .inferring (some frame) =>
      if s.stage.engine.isSome then
        { s with stage := s.stage.storeResult frame drawn, worker := .resting }
      else { s with worker := .loop }
  | .inferring none => { s with worker := .loop }
  | .resting => { s with stage := { s.stage with inferRunning := false }, worker := .loop }

def step (s : InferThreads) : InferTurn → InferThreads
  | .processFrame frame => s.processFrame frame
  | .shutdown => s.shutdown
  | .caller => s.callerTurn
  | .worker drawn => s.workerTurn drawn

/-- No thread is in the stage. -/
def start (a : AiStage) : InferThreads where
  stage := a

/-! ### Alone -/

variable {s : InferThreads} {a : AiStage}

/-- The calling thread alone, in `ProcessFrame`. -/
theorem submit_alone {frame : Frame} (hraw : frame.type = .raw)
    (hengine : a.engine.isSome = true) (hcascade : a.cascade = []) (hsubmits : a.submits = true) :
    let s := (.processFrame frame :: List.replicate 4 .caller).foldl step (start a)
    s.stage = (a.processFrame frame).1 ∧ s.caller = .idle := by
  have hnone : a.engine.isNone = false := Option.isNone_eq_false_iff.mpr hengine
  simp [step, start, processFrame, callerTurn, AiStage.processFrame, AiStage.submitAsync, hraw,
    hengine, hnone, hcascade, hsubmits, InferPlace.holds, List.replicate]

/-- The worker alone, from one test of its loop to the next. -/
theorem inferWorker_turns {frame : Frame} {image : Image} {drawn : Option Image}
    (hworker : s.worker = .loop) (hflag : s.shutdownInfer = false) (hfree : s.caller.holds = false)
    (hpending : s.stage.pendingFrame = some frame) (hdata : frame.data = some image)
    (hengine : s.stage.engine.isSome = true) :
    let s' := (List.replicate 6 (.worker drawn)).foldl step s
    s'.stage = (s.stage.inferWorker drawn).1 ∧ s'.worker = .loop := by
  obtain ⟨engine, hsome⟩ := Option.isSome_iff_exists.mp hengine
  simp only [List.replicate, List.foldl_cons, List.foldl_nil, step, workerTurn, hworker, hflag,
    ready, hpending, hfree, Waiting.turn, hsome, AiStage.storeResult, hdata, AiStage.inferWorker,
    AiStage.inferResult, Option.bind_some, Option.isSome_some, Bool.true_or, Bool.not_false,
    if_true, Bool.false_eq_true, if_false, and_true]
  cases engine.infer (drawn.getD image) s.stage.confidenceThreshold with
  | none => rfl
  | some dets => cases dets <;> rfl

/-! ### The mutex -/

/-- Not both threads hold the mutex. -/
def Exclusive (s : InferThreads) : Prop := s.caller.holds = true → s.worker.holds = false

@[simp] theorem holds_notified (p : InferPlace) : p.notified.holds = p.holds := by
  cases p with
  | waiting w => exact Waiting.holds_notified
  | _ => rfl

theorem Exclusive.callerTurn (h : Exclusive s) : Exclusive s.callerTurn := by
  unfold InferThreads.callerTurn
  split
  · exact h
  · exact h
  · dsimp only
    split
    · exact nofun
    · exact nofun
  · split
    · exact h
    · next hfree => exact fun _ => Bool.eq_false_iff.mpr hfree
  · exact nofun
  · exact nofun
  · exact nofun
  · exact nofun
  · split
    · exact nofun
    · exact h

theorem Exclusive.workerTurn (h : Exclusive s) (drawn : Option Image) :
    Exclusive (s.workerTurn drawn) := by
  unfold InferThreads.workerTurn
  split
  · exact h
  · exact h
  · intro _
    dsimp only
    split <;> rfl
  · split <;> exact fun _ => rfl
  · next w _ hw =>
      intro hcaller
      refine Bool.eq_false_iff.mpr fun hholds => ?_
      rcases Waiting.holds_turn hholds with hold | hfree
      · have hworker : s.worker.holds = true := by rw [hw]; exact hold
        exact Bool.eq_false_iff.mp (h hcaller) hworker
      · rw [hcaller] at hfree
        cases hfree
  · split <;> exact fun _ => rfl
  · exact fun _ => rfl
  · exact fun _ => rfl

theorem Exclusive.step (h : Exclusive s) (t : InferTurn) : Exclusive (s.step t) := by
  cases t with
  | processFrame frame =>
      simp only [InferThreads.step, processFrame]
      split
      · split
        · exact nofun
        · exact h
      · exact h
  | shutdown =>
      simp only [InferThreads.step, shutdown]
      split
      · exact nofun
      · exact h
  | caller => exact h.callerTurn
  | worker drawn => exact h.workerTurn drawn

/-- The mutex has one holder at a time. -/
theorem exclusive (a : AiStage) (turns : List InferTurn) : Along step Exclusive (start a) turns :=
  along_of_step (fun _ t h => h.step t) turns nofun

/-! ### A worker left blocked -/

/-- The worker is blocked, with `shutdown_infer_` set and the notification of `Shutdown` behind
it. -/
def Hung (s : InferThreads) : Prop :=
  s.worker = .waiting .blocked ∧ s.shutdownInfer = true ∧ s.caller.Notified

/-- The turn is the worker's. -/
def isWorker : InferTurn → Bool
  | .worker _ => true
  | _ => false

/-- Whatever comes in between, `Shutdown` has returned after three turns of the worker and one of
its own. -/
def Returns (s : InferThreads) : Prop :=
  ∀ turns, 3 ≤ turns.countP isWorker → ((turns ++ [.caller]).foldl step s).caller = .returned

/-- The worker is never left blocked, also not by its next turn, and a `Shutdown` that has sent its
notification returns. -/
structure Completes (a : AiStage) (turns : List InferTurn) : Prop where
  notHung : Along step (¬ Hung ·) (start a) (turns ++ [.worker none])
  returns : (turns.foldl step (start a)).caller.Notified → Returns (turns.foldl step (start a))

/-- The turn is not the notification of `Shutdown` between the worker's test and its blocking. -/
def Heard (s : InferThreads) : InferTurn → Prop
  | .caller => s.caller = .waking → s.worker ≠ .waiting .sleeping
  | _ => True

/-! ### What `Shutdown` has done -/

/-- `Shutdown` has stored its flag. -/
def Flagged : CallPlace → Prop
  | .waking | .joining | .returned => True
  | _ => False

theorem Flagged.of_notified {p : CallPlace} (h : p.Notified) : Flagged p := by
  rcases h.cases with rfl | rfl
  · trivial
  · trivial

/-- The worker neither is blocked nor about to block. -/
def WorkerAwake : InferPlace → Prop
  | .waiting w => w.Awake
  | _ => True

/-- Once `Shutdown` has stored its flag it is set; once it has sent its notification, the worker is
awake. -/
structure Kept (s : InferThreads) : Prop where
  flag : Flagged s.caller → s.shutdownInfer = true
  awake : s.caller.Notified → WorkerAwake s.worker

theorem Kept.not_hung (h : Kept s) : ¬ Hung s := by
  rintro ⟨hworker, -, hnotified⟩
  have hawake := h.awake hnotified
  rw [hworker] at hawake
  exact hawake.2 rfl

/-- Where the notification of `Shutdown` finds the worker awake, or blocked. -/
theorem workerAwake_notified {p : InferPlace} (h : p ≠ .waiting .sleeping) :
    WorkerAwake p.notified := by
  cases p with
  | waiting w => exact Waiting.awake_notified.mpr fun hw => h (congrArg _ hw)
  | _ => trivial

theorem Kept.callerTurn (h : Kept s) (hheard : s.caller = .waking → s.worker ≠ .waiting .sleeping) :
    Kept s.callerTurn := by
  unfold InferThreads.callerTurn
  split
  · exact h
  · exact h
  · dsimp only
    split
    · exact ⟨nofun, nofun⟩
    · exact ⟨nofun, nofun⟩
  · split
    · exact h
    · exact ⟨nofun, nofun⟩
  · exact ⟨nofun, nofun⟩
  · exact ⟨nofun, nofun⟩
  · exact ⟨fun _ => rfl, nofun⟩
  · next hcaller =>
      have hflag : s.shutdownInfer = true := h.flag (by rw [hcaller]; trivial)
      exact ⟨fun _ => hflag, fun _ => workerAwake_notified (hheard hcaller)⟩
  · next hcaller =>
      have hnotified : s.caller.Notified := by rw [hcaller]; trivial
      split
      · exact ⟨fun _ => h.flag (.of_notified hnotified), fun _ => h.awake hnotified⟩
      · exact h

/-- Once the flag is set, a worker that is awake stays so. -/
theorem workerAwake_workerTurn (hflag : s.shutdownInfer = true) (h : WorkerAwake s.worker)
    (drawn : Option Image) : WorkerAwake (s.workerTurn drawn).worker := by
  unfold InferThreads.workerTurn
  split
  · exact h
  · exact h
  · rw [hflag]
    trivial
  · rw [hflag]
    trivial
  · next w _ hw =>
      rw [hw] at h
      have hready : s.ready = true := by rw [ready, hflag, Bool.or_true]
      rw [hready]
      exact Waiting.Awake.turn h
  · split <;> trivial
  · trivial
  · trivial

/-- The worker changes the stage and where it is, and nothing else. -/
theorem workerTurn_eq (drawn : Option Image) :
    ∃ stage worker, s.workerTurn drawn = { s with stage := stage, worker := worker } := by
  unfold workerTurn
  split
  · exact ⟨s.stage, s.worker, rfl⟩
  · exact ⟨s.stage, s.worker, rfl⟩
  · exact ⟨s.stage, _, rfl⟩
  · split
    · exact ⟨s.stage, _, rfl⟩
    · exact ⟨_, _, rfl⟩
  · exact ⟨s.stage, _, rfl⟩
  · split
    · exact ⟨_, _, rfl⟩
    · exact ⟨s.stage, _, rfl⟩
  · exact ⟨s.stage, _, rfl⟩
  · exact ⟨_, _, rfl⟩

@[simp] theorem workerTurn_caller (drawn : Option Image) :
    (s.workerTurn drawn).caller = s.caller := by
  obtain ⟨stage, worker, h⟩ := workerTurn_eq (s := s) drawn
  rw [h]

@[simp] theorem workerTurn_shutdownInfer (drawn : Option Image) :
    (s.workerTurn drawn).shutdownInfer = s.shutdownInfer := by
  obtain ⟨stage, worker, h⟩ := workerTurn_eq (s := s) drawn
  rw [h]

theorem Kept.step (h : Kept s) (t : InferTurn) (hheard : Heard s t) : Kept (s.step t) := by
  cases t with
  | processFrame frame =>
      simp only [InferThreads.step, processFrame]
      split
      · split
        · exact ⟨nofun, nofun⟩
        · exact h
      · exact h
  | shutdown =>
      simp only [InferThreads.step, shutdown]
      split
      · exact ⟨nofun, nofun⟩
      · exact h
  | caller => exact h.callerTurn hheard
  | worker drawn =>
      refine ⟨fun hflagged => ?_, fun hnotified => ?_⟩
      · rw [InferThreads.step, workerTurn_caller] at hflagged
        exact (workerTurn_shutdownInfer drawn).trans (h.flag hflagged)
      · rw [InferThreads.step, workerTurn_caller] at hnotified
        exact workerAwake_workerTurn (h.flag (.of_notified hnotified)) (h.awake hnotified) drawn

theorem kept_start (a : AiStage) : Kept (start a) := ⟨nofun, nofun⟩

/-! ### Once the notification is sent -/

/-- The calling thread only waits for the worker then. -/
theorem step_of_notified {t : InferTurn} (h : s.caller.Notified) (ht : isWorker t = false) :
    (s.step t).caller.Notified ∧ (s.step t).worker = s.worker ∧
      (s.step t).shutdownInfer = s.shutdownInfer := by
  cases t with
  | processFrame frame =>
      rcases h.cases with hcaller | hcaller
      · simp [step, processFrame, hcaller, CallPlace.Notified]
      · simp [step, processFrame, hcaller, CallPlace.Notified]
  | shutdown =>
      rcases h.cases with hcaller | hcaller
      · simp [step, shutdown, hcaller, CallPlace.Notified]
      · simp [step, shutdown, hcaller, CallPlace.Notified]
  | caller =>
      rcases h.cases with hcaller | hcaller
      · by_cases hjoined : s.worker.joined = true
        · simp [step, callerTurn, hcaller, hjoined, CallPlace.Notified]
        · simp [step, callerTurn, hcaller, hjoined, CallPlace.Notified]
      · simp [step, callerTurn, hcaller, CallPlace.Notified]
  | worker drawn => cases ht

/-- How many of its turns the worker needs at most to end; none where these do not end it. -/
def turnsLeft : InferPlace → Option ℕ
  | .absent | .exited => some 0
  | .loop => some 1
  | .waiting w => w.turnsLeft.map (· + 1)
  | .resting => some 2
  | .inferring _ => some 3

/-- The notification is sent, and the worker ends after at most `k` turns. -/
structure Leaving (k : ℕ) (s : InferThreads) : Prop where
  notified : s.caller.Notified
  flag : s.shutdownInfer = true
  left : ∃ j ≤ k, turnsLeft s.worker = some j

variable {k : ℕ}

theorem Kept.leaving (h : Kept s) (hnotified : s.caller.Notified) : Leaving 3 s where
  notified := hnotified
  flag := h.flag (.of_notified hnotified)
  left := by
    have hawake := h.awake hnotified
    cases hworker : s.worker with
    | absent => exact ⟨0, Nat.zero_le 3, rfl⟩
    | loop => exact ⟨1, Nat.le_add_left 1 2, rfl⟩
    | waiting w =>
        rw [hworker] at hawake
        obtain ⟨j, hj, hleft⟩ := Waiting.turnsLeft_isSome hawake
        exact ⟨j + 1, Nat.succ_le_succ hj, by rw [turnsLeft, hleft, Option.map_some]⟩
    | inferring frame => exact ⟨3, le_rfl, rfl⟩
    | resting => exact ⟨2, Nat.le_succ 2, rfl⟩
    | exited => exact ⟨0, Nat.zero_le 3, rfl⟩

theorem free_of_notified (h : s.caller.Notified) : s.caller.holds = false := by
  rcases h.cases with hcaller | hcaller
  · rw [hcaller]
    rfl
  · rw [hcaller]
    rfl

/-- One turn of the worker. -/
theorem turnsLeft_workerTurn (hflag : s.shutdownInfer = true) (hfree : s.caller.holds = false)
    {j : ℕ} (h : turnsLeft s.worker = some j) (drawn : Option Image) :
    ∃ i ≤ j - 1, turnsLeft (s.workerTurn drawn).worker = some i := by
  unfold workerTurn
  split
  · next hworker => exact ⟨0, Nat.zero_le _, by rw [hworker]; rfl⟩
  · next hworker => exact ⟨0, Nat.zero_le _, by rw [hworker]; rfl⟩
  · rw [hflag]
    exact ⟨0, Nat.zero_le _, rfl⟩
  · rw [hflag]
    exact ⟨0, Nat.zero_le _, rfl⟩
  · next w hpast hworker =>
      rw [hworker] at h
      obtain ⟨i, hi, rfl⟩ := Option.map_eq_some_iff.mp h
      have hready : s.ready = true := by rw [ready, hflag, Bool.or_true]
      rw [hready, hfree]
      cases i with
      | zero => cases w <;> simp_all [Waiting.turnsLeft]
      | succ i =>
          refine ⟨i + 1, le_rfl, ?_⟩
          simp only [turnsLeft, Bool.not_false, Waiting.turnsLeft_turn hi, Option.map_some]
  · next hworker =>
      rw [hworker] at h
      obtain rfl := Option.some.inj h
      split
      · exact ⟨2, le_rfl, rfl⟩
      · exact ⟨1, Nat.le_succ 1, rfl⟩
  · next hworker =>
      rw [hworker] at h
      obtain rfl := Option.some.inj h
      exact ⟨1, Nat.le_succ 1, rfl⟩
  · next hworker =>
      rw [hworker] at h
      obtain rfl := Option.some.inj h
      exact ⟨1, le_rfl, rfl⟩

theorem Leaving.step (h : Leaving k s) (t : InferTurn) :
    Leaving (k - if isWorker t then 1 else 0) (s.step t) := by
  obtain ⟨j, hj, hleft⟩ := h.left
  cases ht : isWorker t with
  | false =>
      obtain ⟨hnotified, hworker, hflag⟩ := step_of_notified h.notified ht
      exact ⟨hnotified, hflag.trans h.flag, j, hj, by rw [hworker, hleft]⟩
  | true =>
      cases t with
      | worker drawn =>
          obtain ⟨i, hi, hnext⟩ :=
            turnsLeft_workerTurn h.flag (free_of_notified h.notified) hleft drawn
          refine ⟨?_, (workerTurn_shutdownInfer drawn).trans h.flag, i, ?_, hnext⟩
          · rw [InferThreads.step, workerTurn_caller]
            exact h.notified
          · exact hi.trans (Nat.sub_le_sub_right hj 1)
      | _ => cases ht

theorem Leaving.foldl (h : Leaving k s) (turns : List InferTurn) :
    Leaving (k - turns.countP isWorker) (turns.foldl InferThreads.step s) := by
  induction turns generalizing k s with
  | nil => exact h
  | cons t turns ih =>
      have hrest := ih (h.step t)
      rwa [Nat.sub_sub, Nat.add_comm, ← List.countP_cons] at hrest

/-- A worker with no turns left has ended, or has never been. -/
theorem joined_of_leaving (h : Leaving 0 s) : s.worker.joined = true := by
  obtain ⟨j, hj, hleft⟩ := h.left
  obtain rfl := Nat.le_zero.mp hj
  cases hworker : s.worker with
  | absent => rfl
  | exited => rfl
  | waiting w =>
      rw [hworker] at hleft
      obtain ⟨i, -, hi⟩ := Option.map_eq_some_iff.mp hleft
      cases hi
  | _ => simp [hworker, turnsLeft] at hleft

/-- **The join completes.** -/
theorem Leaving.returns (h : Leaving 3 s) : Returns s := by
  intro turns hturns
  have hlast := h.foldl turns
  rw [Nat.sub_eq_zero_of_le hturns] at hlast
  rw [List.foldl_concat, InferThreads.step, InferThreads.callerTurn]
  rcases hlast.notified.cases with hcaller | hcaller
  · simp [hcaller, joined_of_leaving hlast]
  · simp [hcaller]

/-- The notification is sent, and the worker is about to block. -/
structure Doomed (s : InferThreads) : Prop where
  notified : s.caller.Notified
  flag : s.shutdownInfer = true
  sleeping : s.worker = .waiting .sleeping

/-- **The next turn of the worker blocks it.** -/
theorem Doomed.hangs (h : Doomed s) (turns : List InferTurn) :
    ¬ Along step (¬ Hung ·) s (turns ++ [.worker none]) := by
  have hblocks : ∀ {s : InferThreads}, Doomed s → ∀ drawn, Hung (s.workerTurn drawn) := by
    intro s h drawn
    refine ⟨?_, (workerTurn_shutdownInfer drawn).trans h.flag, ?_⟩
    · simp only [workerTurn, h.sleeping]
      rfl
    · rw [workerTurn_caller]
      exact h.notified
  induction turns generalizing s with
  | nil => exact fun halong => halong.2 (hblocks h none)
  | cons t turns ih =>
      intro halong
      cases ht : isWorker t with
      | false =>
          obtain ⟨hnotified, hworker, hflag⟩ := step_of_notified h.notified ht
          exact ih ⟨hnotified, hflag.trans h.flag, hworker.trans h.sleeping⟩ halong.2
      | true =>
          cases t with
          | worker drawn => exact halong.2.first (hblocks h drawn)
          | _ => cases ht

theorem doomed_of_not_heard (h : Kept s) {t : InferTurn} (ht : ¬ Heard s t) :
    Doomed (s.step t) := by
  cases t with
  | caller =>
      obtain ⟨hcaller, hsleeping⟩ := Classical.not_imp.mp ht
      have hworker : s.worker = .waiting .sleeping := not_not.mp hsleeping
      have hflag : s.shutdownInfer = true := h.flag (by rw [hcaller]; trivial)
      rw [step, InferThreads.callerTurn, hcaller]
      exact ⟨trivial, hflag, by rw [hworker]; rfl⟩
  | _ => exact absurd trivial ht

theorem heard_of_along (h : Kept s) {turns : List InferTurn}
    (halong : Along step (¬ Hung ·) s (turns ++ [.worker none])) :
    EveryStep step Heard s turns := by
  induction turns generalizing s with
  | nil => trivial
  | cons t turns ih =>
      by_cases ht : Heard s t
      · exact ⟨ht, ih (h.step t ht) halong.2⟩
      · exact absurd halong.2 (doomed_of_not_heard h ht |>.hangs turns)

/-- **The shutdown completes** exactly where its notification does not come between the worker's
test and its blocking: the worker is never left blocked, and the join returns. -/
theorem completes_iff (a : AiStage) (turns : List InferTurn) :
    Completes a turns ↔ EveryStep step Heard (start a) turns := by
  constructor
  · intro h
    exact heard_of_along (kept_start a) h.notHung
  · intro h
    have hall : EveryStep step Heard (start a) (turns ++ [.worker none]) :=
      everyStep_concat.mpr ⟨h, trivial⟩
    have hstep : ∀ s t, Kept s → Heard s t → Kept (step s t) := fun _ t hs ht => hs.step t ht
    have hkept := along_of_everyStep hstep (kept_start a) hall
    have hlast := foldl_of_everyStep hstep (kept_start a) h
    exact ⟨hkept.mono fun _ hs => hs.not_hung, fun hnotified => (hlast.leaving hnotified).returns⟩

/-- A `Shutdown` whose worker is blocked never returns. -/
theorem never_returns (hcaller : s.caller = .joining) (hworker : s.worker = .waiting .blocked)
    (turns : List InferTurn) : (turns.foldl step s).caller = .joining := by
  have hstep : ∀ (s : InferThreads) (t : InferTurn),
      s.caller = .joining ∧ s.worker = .waiting .blocked →
        (step s t).caller = .joining ∧ (step s t).worker = .waiting .blocked := by
    rintro s t ⟨hcaller, hworker⟩
    cases t with
    | processFrame frame => simp [step, processFrame, hcaller, hworker]
    | shutdown => simp [step, shutdown, hcaller, hworker]
    | caller => simp [step, callerTurn, hcaller, hworker, InferPlace.joined]
    | worker drawn => simp [step, workerTurn, hcaller, hworker, Waiting.turn]
  exact (foldl_of_step hstep turns ⟨hcaller, hworker⟩).1

/-- A stage with an engine that is to skip every other frame. -/
def everyOther : AiStage where
  engine := some ⟨fun _ _ => none⟩
  skipFrames := 1

/-- One frame, which is not submitted, starts the worker; `Shutdown` stores its flag and notifies
when the worker has found nothing to do and not blocked yet. -/
def unheard : List InferTurn :=
  [.processFrame { origin := 0 }, .caller, .worker none, .worker none, .worker none, .shutdown,
    .caller, .caller, .worker none]

theorem completes_refuted :
    ¬ ∀ (a : AiStage) (turns : List InferTurn), Along step (¬ Hung ·) (start a) turns := by
  intro h
  refine (h everyOther unheard).last ?_
  simp [unheard, step, start, everyOther, processFrame, AiStage.withLastResult, callerTurn,
    AiStage.submits, workerTurn, Waiting.turn, CallPlace.holds, ready, shutdown,
    InferPlace.notified, Waiting.notified, Hung, CallPlace.Notified]

end InferThreads

end LoongNvr.Pipeline
