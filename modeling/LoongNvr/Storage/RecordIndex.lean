import LoongNvr.Rules.RuleStore
import LoongNvr.Support.Runs
import Mathlib.Data.List.Sort

/-!
# Storage — RecordIndex

The SQLite index of the recorded segments and of the events in them.  Statements succeed.

* `insertSegment`, `updateSegmentEnd`, `insertEvent`, `deleteSegment`: the statements.
* `oldestFirst`: the order of `ORDER BY start_time ASC`, in which the index of the table keeps
  segments that start together in the order of their ids.
* `getOldestSegments`, `querySegments`, `getChannelTotalSize`: the queries.
* `Indexer`, `step`: the queue and the flushes under way, one critical section or one statement at
  a time.
* `applied_perm`: in any order of steps, each operation is applied once.
* `InOrder`: no operation is applied while an earlier flush is still at work.
* `applied_inOrder`: then the operations are applied in the order they were queued.
-/

namespace LoongNvr.Storage
open Support
open LoongNvr.Rules (cStr)

/-- A row of `recording_segments`, its id apart. -/
structure SegmentRow where
  channelId : ℤ
  startTime : ℤ
  endTime : ℤ
  filePath : String
  fileSize : ℤ := 0
  codec : String := ""
  resolution : String := ""
  hasAiOverlay : Bool := false
  deriving DecidableEq, Repr

/-- A row of `recording_events`, its id apart. -/
structure SegmentEventRow where
  segmentId : ℤ
  channelId : ℤ
  eventType : String
  eventTime : ℤ
  confidence : ℚ := 0
  metadata : String := ""
  deriving DecidableEq, Repr

/-- The database. -/
structure RecordIndex where
  segments : Table SegmentRow := .empty
  events : Table SegmentEventRow := .empty

/-- Earlier start first, and of those that start together the lower id. -/
def StartsBefore (a b : ℤ × SegmentRow) : Prop :=
  a.2.startTime < b.2.startTime ∨ a.2.startTime = b.2.startTime ∧ a.1 ≤ b.1

instance (a b : ℤ × SegmentRow) : Decidable (StartsBefore a b) :=
  inferInstanceAs (Decidable (_ ∨ _ ∧ _))

/-- `ORDER BY start_time ASC` -/
def oldestFirst (rows : List (ℤ × SegmentRow)) : List (ℤ × SegmentRow) :=
  rows.insertionSort StartsBefore

theorem oldestFirst_perm (rows : List (ℤ × SegmentRow)) : (oldestFirst rows).Perm rows :=
  List.perm_insertionSort _ _

theorem mem_oldestFirst {rows : List (ℤ × SegmentRow)} {row : ℤ × SegmentRow} :
    row ∈ oldestFirst rows ↔ row ∈ rows :=
  (oldestFirst_perm rows).mem_iff

theorem oldestFirst_sorted (rows : List (ℤ × SegmentRow)) :
    (oldestFirst rows).Pairwise StartsBefore := by
  have total : Std.Total StartsBefore := ⟨fun a b => by
    simp only [StartsBefore]
    omega⟩
  have trans : IsTrans (ℤ × SegmentRow) StartsBefore := ⟨fun a b c hab hbc => by
    simp only [StartsBefore] at hab hbc ⊢
    omega⟩
  exact List.pairwise_insertionSort StartsBefore rows

/-- Sorting what is left of rows with distinct ids leaves the order as it was. -/
theorem oldestFirst_filter {rows : List (ℤ × SegmentRow)} (hnodup : (rows.map (·.1)).Nodup)
    (p : ℤ × SegmentRow → Bool) : oldestFirst (rows.filter p) = (oldestFirst rows).filter p := by
  refine List.Perm.eq_of_pairwise ?_ (oldestFirst_sorted _)
    ((oldestFirst_sorted rows).filter p)
    ((oldestFirst_perm _).trans ((oldestFirst_perm rows).filter p).symm)
  intro a b ha hb hab hba
  have hid : a.1 = b.1 := by
    simp only [StartsBefore] at hab hba
    omega
  have ha := (List.mem_filter.mp (mem_oldestFirst.mp ha)).1
  have hb := mem_oldestFirst.mp (List.mem_filter.mp hb).1
  exact List.inj_on_of_nodup_map hnodup ha hb hid

namespace RecordIndex

/-- The new segment's id. -/
def insertSegment (info : SegmentRow) (index : RecordIndex) : RecordIndex × ℤ :=
  ({ index with
      segments := index.segments.insert
        { info with
          filePath := cStr info.filePath
          codec := cStr info.codec
          resolution := cStr info.resolution } }, index.segments.seq + 1)

def updateSegmentEnd (segmentId endTime fileSize : ℤ) (index : RecordIndex) : RecordIndex :=
  { index with
    segments := index.segments.modify segmentId fun row =>
      { row with endTime := endTime, fileSize := fileSize } }

def insertEvent (event : SegmentEventRow) (index : RecordIndex) : RecordIndex :=
  { index with
    events := index.events.insert
      { event with eventType := cStr event.eventType, metadata := cStr event.metadata } }

/-- The segments of a channel, as the table has them. -/
def channelSegments (channelId : ℤ) (index : RecordIndex) : List (ℤ × SegmentRow) :=
  index.segments.select fun row => row.2.channelId = channelId

/-- `SELECT COALESCE(SUM(file_size), 0)` -/
def getChannelTotalSize (channelId : ℤ) (index : RecordIndex) : ℤ :=
  ((index.channelSegments channelId).map (·.2.fileSize)).sum

def getOldestSegments (channelId : ℤ) (count : ℕ) (index : RecordIndex) : List (ℤ × SegmentRow) :=
  (oldestFirst (index.channelSegments channelId)).take count

def querySegments (channelId startTime endTime : ℤ) (index : RecordIndex) :
    List (ℤ × SegmentRow) :=
  oldestFirst ((index.channelSegments channelId).filter fun row =>
    row.2.startTime ≤ endTime ∧ row.2.endTime ≥ startTime)

/-- The path of the deleted segment, empty if there is none. -/
def deleteSegment (segmentId : ℤ) (index : RecordIndex) : RecordIndex × String :=
  ({ segments := index.segments.delete segmentId
     events := (index.events.rows.filter fun row => row.2.segmentId = segmentId).foldl
       (fun events row => events.delete row.1) index.events },
    ((index.segments.find segmentId).map (·.filePath)).getD "")

end RecordIndex

end LoongNvr.Storage

/-! ### The queue in front

The queue in front of `RecordIndex`.  Any thread queues an operation under the mutex; a flush takes
the whole queue under the mutex and applies it without, so flushes started by the loop, by `Flush`
and by `Stop` can overlap.
-/

namespace LoongNvr.Storage
open Support

inductive PendingOp
  | insertSegment (segment : SegmentRow)
  | updateSegment (segmentId endTime fileSize : ℤ)
  | insertEvent (event : SegmentEventRow)
  deriving DecidableEq

/-- One turn of `FlushPending`'s loop. -/
def PendingOp.apply (index : RecordIndex) : PendingOp → RecordIndex
  | .insertSegment segment => (index.insertSegment segment).1
  | .updateSegment segmentId endTime fileSize => index.updateSegmentEnd segmentId endTime fileSize
  | .insertEvent event => index.insertEvent event

/-- The queue, what each flush has still to apply, in the order they took it, and the operations
applied so far with the index they were applied to. -/
structure Indexer where
  pendingOps : List PendingOp := []
  flushes : List (List PendingOp) := []
  applied : List PendingOp := []
  index : RecordIndex := {}

/-- A step of one of the threads: an operation is queued, a flush takes the queue, or the flush
that took it as the `k`-th applies its next operation. -/
inductive IndexerStep
  | queue (op : PendingOp)
  | take
  | apply (k : ℕ)
  deriving DecidableEq

namespace Indexer

def queue (op : PendingOp) (s : Indexer) : Indexer := { s with pendingOps := s.pendingOps ++ [op] }

/-- `ops.swap(pending_ops_)` -/
def take (s : Indexer) : Indexer :=
  { s with pendingOps := [], flushes := s.flushes ++ [s.pendingOps] }

/-- The next operation of the `k`-th flush, if it has one. -/
def apply (k : ℕ) (s : Indexer) : Indexer :=
  match s.flushes[k]? with
  | some (op :: ops) =>
      { s with
        flushes := s.flushes.set k ops
        applied := s.applied ++ [op]
        index := op.apply s.index }
  | _ => s

def step (s : Indexer) : IndexerStep → Indexer
  | .queue op => s.queue op
  | .take => s.take
  | .apply k => s.apply k

/-- What is still to be applied, in the order it was queued. -/
def outstanding (s : Indexer) : List PendingOp := s.flushes.flatten ++ s.pendingOps

end Indexer

/-- The operations a run queues, in order. -/
def queuedOps : List IndexerStep → List PendingOp
  | [] => []
  | .queue op :: steps => op :: queuedOps steps
  | _ :: steps => queuedOps steps

namespace Indexer

/-! ### Each operation once -/

/-- Taking the first element of one list out of a list of lists. -/
theorem flatten_set_perm {α : Type*} {xss : List (List α)} {k : ℕ} {x : α} {xs : List α}
    (h : xss[k]? = some (x :: xs)) : xss.flatten.Perm (x :: (xss.set k xs).flatten) := by
  induction xss generalizing k with
  | nil => simp at h
  | cons ys xss ih =>
      cases k with
      | zero =>
          obtain rfl : ys = x :: xs := by simpa using h
          exact List.Perm.refl _
      | succ k =>
          have ih := ih (k := k) (by simpa using h)
          rw [List.set_cons_succ, List.flatten_cons, List.flatten_cons]
          exact (ih.append_left ys).trans List.perm_middle

theorem applied_perm_step (s : Indexer) (a : IndexerStep) :
    ((s.step a).applied ++ (s.step a).outstanding).Perm
      (s.applied ++ s.outstanding ++ queuedOps [a]) := by
  cases a with
  | queue op => simp [step, queue, outstanding, queuedOps]
  | take => simp [step, take, outstanding, queuedOps]
  | apply k =>
      simp only [step, apply, queuedOps, List.append_nil]
      split
      · rename_i op ops hk
        simp only [outstanding, List.append_assoc, List.singleton_append]
        refine List.Perm.append_left _ ?_
        exact (((flatten_set_perm hk).append_right _).symm : _)
      · exact List.Perm.refl _

theorem queuedOps_append (as bs : List IndexerStep) :
    queuedOps (as ++ bs) = queuedOps as ++ queuedOps bs := by
  induction as with
  | nil => rfl
  | cons a as ih => cases a <;> simp only [List.cons_append, queuedOps, ih]

/-- **Each operation once**: in any order of steps, what was queued is what was applied and what is
still to be applied. -/
theorem applied_perm (s : Indexer) (steps : List IndexerStep) :
    ((steps.foldl step s).applied ++ (steps.foldl step s).outstanding).Perm
      (s.applied ++ s.outstanding ++ queuedOps steps) := by
  induction steps generalizing s with
  | nil => simp [queuedOps]
  | cons a steps ih =>
      have hstep := (applied_perm_step s a).append_right (queuedOps steps)
      rw [List.append_assoc _ (queuedOps [a]), ← queuedOps_append] at hstep
      exact (ih (s.step a)).trans hstep

/-! ### In the order of the queue -/

/-- No operation is applied while a flush that took its batch earlier has some left. -/
def InOrder (s : Indexer) : IndexerStep → Prop
  | .apply k => ∀ ops ∈ s.flushes.take k, ops = []
  | _ => True

instance (s : Indexer) : ∀ a, Decidable (s.InOrder a)
  | .apply k => inferInstanceAs (Decidable (∀ ops ∈ s.flushes.take k, ops = []))
  | .queue _ | .take => .isTrue trivial

/-- Taking the first element of the first list that has one. -/
theorem flatten_set_of_empty {α : Type*} {xss : List (List α)} {k : ℕ} {x : α} {xs : List α}
    (h : xss[k]? = some (x :: xs)) (hempty : ∀ ys ∈ xss.take k, ys = []) :
    xss.flatten = x :: (xss.set k xs).flatten := by
  induction xss generalizing k with
  | nil => simp at h
  | cons ys xss ih =>
      cases k with
      | zero =>
          obtain rfl : ys = x :: xs := by simpa using h
          rfl
      | succ k =>
          obtain rfl : ys = [] := hempty ys List.mem_cons_self
          exact ih (by simpa using h) fun zs hzs => hempty zs (List.mem_cons_of_mem _ hzs)

/-- **One step** in order: what was applied and what is outstanding stay one sequence. -/
theorem applied_step {s : Indexer} {a : IndexerStep} (h : s.InOrder a) :
    (s.step a).applied ++ (s.step a).outstanding =
      s.applied ++ s.outstanding ++ queuedOps [a] := by
  cases a with
  | queue op => simp [step, queue, outstanding, queuedOps]
  | take => simp [step, take, outstanding, queuedOps]
  | apply k =>
      simp only [step, apply, queuedOps, List.append_nil]
      split
      · rename_i op ops hk
        simp only [outstanding, List.append_assoc, flatten_set_of_empty hk h, List.cons_append,
          List.nil_append]
      · rfl

/-- The index is what the applied operations make of it. -/
theorem index_step (s : Indexer) (a : IndexerStep) {index₀ : RecordIndex}
    (h : s.index = s.applied.foldl PendingOp.apply index₀) :
    (s.step a).index = (s.step a).applied.foldl PendingOp.apply index₀ := by
  cases a with
  | queue | take => exact h
  | apply k =>
      simp only [step, apply]
      split
      · rw [List.foldl_concat, ← h]
      · exact h

theorem applied_run {s : Indexer} {steps : List IndexerStep} (h : EveryStep step InOrder s steps) :
    (steps.foldl step s).applied ++ (steps.foldl step s).outstanding =
      s.applied ++ s.outstanding ++ queuedOps steps := by
  induction steps generalizing s with
  | nil => simp [queuedOps]
  | cons a steps ih =>
      calc ((a :: steps).foldl step s).applied ++ ((a :: steps).foldl step s).outstanding
          = (s.step a).applied ++ (s.step a).outstanding ++ queuedOps steps := ih h.2
        _ = s.applied ++ s.outstanding ++ (queuedOps [a] ++ queuedOps steps) := by
          rw [applied_step h.1, List.append_assoc]
        _ = s.applied ++ s.outstanding ++ queuedOps (a :: steps) := by
          rw [← queuedOps_append, List.singleton_append]

/-- All flushes have finished and nothing is queued. -/
def Settled (s : Indexer) : Prop := s.pendingOps = [] ∧ ∀ ops ∈ s.flushes, ops = []

theorem Settled.outstanding {s : Indexer} (h : s.Settled) : s.outstanding = [] := by
  rw [Indexer.outstanding, h.1, List.append_nil, List.flatten_eq_nil_iff]
  exact h.2

/-- **The operations are applied in the order they were queued**, each once, in every run in which
no operation is applied while an earlier flush is still at work. -/
theorem applied_inOrder (index₀ : RecordIndex) (steps : List IndexerStep)
    (h : EveryStep step InOrder { index := index₀ } steps)
    (hsettled : (steps.foldl step { index := index₀ }).Settled) :
    (steps.foldl step { index := index₀ }).applied = queuedOps steps ∧
      (steps.foldl step { index := index₀ }).index =
        (queuedOps steps).foldl PendingOp.apply index₀ := by
  have happlied : (steps.foldl step { index := index₀ }).applied = queuedOps steps := by
    have hrun := applied_run h
    rw [hsettled.outstanding, List.append_nil] at hrun
    exact hrun
  refine ⟨happlied, ?_⟩
  have hstep : ∀ (s : Indexer) (a : IndexerStep),
      s.index = s.applied.foldl PendingOp.apply index₀ →
        (s.step a).index = (s.step a).applied.foldl PendingOp.apply index₀ :=
    fun s a hs => index_step s a hs
  rw [← happlied]
  exact foldl_of_step hstep steps rfl

/-! ### Two flushes that overlap -/

/-- One recorded segment. -/
def oneSegment : RecordIndex :=
  (RecordIndex.insertSegment
    { channelId := 1, startTime := 0, endTime := 0, filePath := "/recordings/ch01/seg.mp4" } {}).1

/-- Two updates of the segment, taken by two flushes of which the second is faster. -/
def overlapping : List IndexerStep :=
  [.queue (.updateSegment 1 1000 10), .take, .queue (.updateSegment 1 2000 20), .take,
    .apply 1, .apply 0]

/-- The earlier update is applied last and stays in force. -/
theorem applied_inOrder_refuted :
    (overlapping.foldl step { index := oneSegment }).Settled ∧
      (overlapping.foldl step { index := oneSegment }).applied ≠ queuedOps overlapping ∧
      ((overlapping.foldl step { index := oneSegment }).index.segments.find 1).map (·.fileSize) =
        some 10 := by
  refine ⟨⟨rfl, by decide⟩, by decide, by decide⟩

/-- The same updates by flushes one after the other. -/
theorem applied_inOrder_apart :
    let steps : List IndexerStep :=
      [.queue (.updateSegment 1 1000 10), .take, .apply 0, .queue (.updateSegment 1 2000 20), .take,
        .apply 1]
    (steps.foldl step { index := oneSegment }).applied = queuedOps steps ∧
      (steps.foldl step { index := oneSegment }).index =
        (queuedOps steps).foldl PendingOp.apply oneSegment :=
  applied_inOrder oneSegment _ (by decide) ⟨rfl, by decide⟩

end Indexer

end LoongNvr.Storage
