import LoongNvr.AiEngine.YoloAdapter
import Mathlib.Algebra.Order.Ring.Rat
import Mathlib.Data.List.Destutter
import Mathlib.Tactic.Linarith

/-!
# AI engine — LprOcrAdapter

The adapter for CRNN-based licence plate OCR models: the output of the network is one row of class
values for each time step, and `CtcGreedyDecode` reads the text off it.

The probability of the best class of a row (a softmax) is a parameter.

* `ctcGreedyDecode_text`: the text is that of the best path, its repeats taken once and its blanks
  left out.
* `postProcess_recognised`: a detection is the whole picture under the text read, of at least the
  confidence asked for; without a text there is none.
* `bestClass_eq_firstArgmax`: the loop over a row finds the first of its greatest values.
* `collapseFrom_cons`: the collapse of a path, step by step from the class before it.
* `decode_eq_spec`: the text, and what does not change it: a step repeated, a value added to a step,
  blank steps between steps of different classes.
-/

namespace LoongNvr.AiEngine.LprOcrAdapter
open LoongNvr.Core

/-- `kBlankIdx` -/
def kBlankIdx : ℕ := 0

/-- `best_idx` and `best_val` of a row: the first of its greatest values above `-1e9`. -/
def bestClass (row : List ℚ) : ℕ × ℚ :=
  row.zipIdx.foldl (fun best value => if value.1 > best.2 then (value.2, value.1) else best)
    (0, -1000000000)

/-- The locals of the loop over the time steps. -/
structure CtcState where
  result : String := ""
  prevIdx : ℕ := kBlankIdx
  totalConf : ℚ := 0
  charCount : ℕ := 0

/-- One time step: blanks are skipped, and repeats of the same character. -/
def ctcStep (prob : List ℚ → ℚ) (charset : List String) (s : CtcState) (row : List ℚ) : CtcState :=
  let bestIdx := (bestClass row).1
  if bestIdx ≠ kBlankIdx ∧ bestIdx ≠ s.prevIdx then
    { result := s.result ++ charset.getD bestIdx ""
      prevIdx := bestIdx
      totalConf := s.totalConf + prob row
      charCount := s.charCount + 1 }
  else { s with prevIdx := bestIdx }

/-- The rows of the time steps. -/
def ctcRows (logits : List ℚ) (timeSteps numClasses : ℕ) : List (List ℚ) :=
  (List.range timeSteps).map fun t => (logits.drop (t * numClasses)).take numClasses

/-- `CtcGreedyDecode`: the text and the average confidence. -/
def ctcGreedyDecode (prob : List ℚ → ℚ) (logits : List ℚ) (timeSteps numClasses : ℤ)
    (charset : List String) : String × ℚ :=
  if timeSteps ≤ 0 ∨ numClasses ≤ 0 then ("", 0)
  else if (logits.length : ℤ) < timeSteps * numClasses then ("", 0)
  else
    let s := (ctcRows logits timeSteps.toNat numClasses.toNat).foldl (ctcStep prob charset) {}
    (s.result, if s.charCount > 0 then s.totalConf / s.charCount else 0)

/-- The part of `PostProcess` after the shape is known: one detection, of the whole picture, or
none. -/
def recognise (prob : List ℚ → ℚ) (charset : List String) (outputData : List ℚ)
    (timeSteps numClasses originalWidth originalHeight : ℤ) (confidenceThreshold : ℚ) :
    List Detection :=
  let (plateText, avgConf) := ctcGreedyDecode prob outputData timeSteps numClasses charset
  if plateText.isEmpty ∨ avgConf < confidenceThreshold then []
  else [{
    x1 := 0
    y1 := 0
    x2 := originalWidth
    y2 := originalHeight
    confidence := avgConf
    classId := 0
    className := plateText }]

/-- `PostProcess` on an output of the given shape: the detections added, or `none` where it
refuses the shape. -/
def postProcess (prob : List ℚ → ℚ) (charset : List String) (outputData : List ℚ)
    (outputShape : List ℤ) (originalWidth originalHeight : ℤ) (confidenceThreshold : ℚ) :
    Option (List Detection) :=
  match outputShape with
  | [timeSteps, numClasses] | [_, timeSteps, numClasses] =>
      some (recognise prob charset outputData (toInt32 timeSteps) (toInt32 numClasses)
        originalWidth originalHeight confidenceThreshold)
  | _ => none

/-! ### The text read -/

/-- The text of a path of classes. -/
def pathText (charset : List String) (path : List ℕ) : String :=
  String.join (path.map fun idx => charset.getD idx "")

/-- A path with its repeats taken once and its blanks left out. -/
def collapse (path : List ℕ) : List ℕ := (path.destutter (· ≠ ·)).filter (· ≠ kBlankIdx)

theorem pathText_cons (charset : List String) (idx : ℕ) (path : List ℕ) :
    pathText charset (idx :: path) = charset.getD idx "" ++ pathText charset path := by
  simp [pathText, String.join_cons]

theorem destutter'_eq_cons (prev : ℕ) (path : List ℕ) :
    path.destutter' (· ≠ ·) prev = prev :: (path.destutter' (· ≠ ·) prev).tail := by
  induction path with
  | nil => rfl
  | cons idx path ih =>
      rw [List.destutter'_cons]
      split
      · rfl
      · exact ih

/-- The steps after a class add the text of what follows it. -/
theorem foldl_ctcStep_result (prob : List ℚ → ℚ) (charset : List String) (rows : List (List ℚ))
    (s : CtcState) :
    (rows.foldl (ctcStep prob charset) s).result = s.result ++ pathText charset
      (((rows.map fun row => (bestClass row).1).destutter' (· ≠ ·) s.prevIdx).tail.filter
        (· ≠ kBlankIdx)) := by
  induction rows generalizing s with
  | nil => simp [pathText, String.join]
  | cons row rows ih =>
      rw [List.foldl_cons, ih, List.map_cons, List.destutter'_cons]
      by_cases hprev : s.prevIdx = (bestClass row).1
      · simp [ctcStep, hprev]
      · rw [if_pos hprev, List.tail_cons,
          destutter'_eq_cons (bestClass row).1 (rows.map fun row => (bestClass row).1)]
        by_cases hblank : (bestClass row).1 = kBlankIdx
        · simp [ctcStep, hblank]
        · simp [ctcStep, hblank, Ne.symm hprev, pathText_cons, String.append_assoc]

/-- A blank in front of a path does not change its text. -/
theorem collapse_eq (path : List ℕ) :
    (path.destutter' (· ≠ ·) kBlankIdx).tail.filter (· ≠ kBlankIdx) = collapse path := by
  cases path with
  | nil => rfl
  | cons idx path =>
      rw [collapse, List.destutter_cons', List.destutter'_cons]
      split
      · rfl
      · next h =>
          rw [← not_not.mp h, destutter'_eq_cons kBlankIdx path]
          simp

/-- **The text** is that of the best path, its repeats taken once and its blanks left out. -/
theorem ctcGreedyDecode_text (prob : List ℚ → ℚ) (logits : List ℚ) {timeSteps numClasses : ℕ}
    (charset : List String) (htime : 0 < timeSteps) (hclasses : 0 < numClasses)
    (hsize : timeSteps * numClasses ≤ logits.length) :
    (ctcGreedyDecode prob logits timeSteps numClasses charset).1 = pathText charset
      (collapse ((ctcRows logits timeSteps numClasses).map fun row => (bestClass row).1)) := by
  have hfull : ¬ (logits.length : ℤ) < timeSteps * numClasses := by
    rw [not_lt]
    exact_mod_cast hsize
  rw [ctcGreedyDecode, if_neg (by omega), if_neg hfull]
  simp only [Int.toNat_natCast]
  rw [foldl_ctcStep_result, ← collapse_eq]
  exact String.empty_append

/-- **A detection** is the whole picture under the text read. -/
theorem postProcess_recognised {prob : List ℚ → ℚ} {charset : List String} {outputData : List ℚ}
    {outputShape : List ℤ} {originalWidth originalHeight : ℤ} {confidenceThreshold : ℚ}
    {detections : List Detection}
    (h : postProcess prob charset outputData outputShape originalWidth originalHeight
      confidenceThreshold = some detections) :
    ∀ det ∈ detections, detections = [det] ∧ det.className ≠ "" ∧
      confidenceThreshold ≤ det.confidence ∧ ∃ timeSteps numClasses,
        (det.className, det.confidence) =
          ctcGreedyDecode prob outputData timeSteps numClasses charset := by
  have hshape : ∃ timeSteps numClasses, detections = recognise prob charset outputData timeSteps
      numClasses originalWidth originalHeight confidenceThreshold := by
    unfold postProcess at h
    split at h
    · exact ⟨_, _, (Option.some.inj h).symm⟩
    · exact ⟨_, _, (Option.some.inj h).symm⟩
    · cases h
  obtain ⟨timeSteps, numClasses, hshape⟩ := hshape
  intro det hdet
  rw [hshape] at hdet ⊢
  simp only [recognise] at hdet ⊢
  split at hdet
  · cases hdet
  · next hread =>
      rw [if_neg hread, List.mem_singleton.mp hdet]
      rw [not_or, not_lt] at hread
      refine ⟨rfl, fun hempty => hread.1 ?_, hread.2, timeSteps, numClasses, rfl⟩
      exact String.isEmpty_iff.mpr hempty

/-! ### The specification

`LprOcrAdapter::CtcGreedyDecode` against its specification: the first class of the greatest value of
each step, repeats taken once, blanks left out.
-/

/-! ### The class of a step -/

/-- The first class whose value is at least every other. -/
def firstArgmax (row : List ℚ) : ℕ := row.findIdx fun v => row.all fun w => decide (w ≤ v)

/-- The class is the first of the greatest values. -/
def IsFirstMax (row : List ℚ) (best : ℕ × ℚ) : Prop :=
  row[best.1]? = some best.2 ∧ (∀ v ∈ row, v ≤ best.2) ∧
    ∀ j < best.1, ∀ v, row[j]? = some v → v < best.2

theorem IsFirstMax.eq_firstArgmax {row : List ℚ} {best : ℕ × ℚ} (h : IsFirstMax row best) :
    best.1 = firstArgmax row := by
  obtain ⟨hbest, hmax, hfirst⟩ := h
  obtain ⟨hlt, hget⟩ := List.getElem?_eq_some_iff.mp hbest
  refine ((List.findIdx_eq hlt).mpr ⟨?_, fun j hj => ?_⟩).symm
  · rw [hget]
    exact List.all_eq_true.mpr fun v hv => decide_eq_true (hmax v hv)
  · have hsmall := hfirst j hj row[j] (List.getElem?_eq_getElem (hj.trans hlt))
    refine List.all_eq_false.mpr ⟨best.2, List.mem_of_getElem? hbest, ?_⟩
    simpa using hsmall

/-- One turn of the loop over a row. -/
theorem IsFirstMax.concat {row : List ℚ} {best : ℕ × ℚ} (h : IsFirstMax row best) (v : ℚ) :
    IsFirstMax (row ++ [v]) (if v > best.2 then (row.length, v) else best) := by
  obtain ⟨hbest, hmax, hfirst⟩ := h
  have hlt : best.1 < row.length := (List.getElem?_eq_some_iff.mp hbest).1
  split
  · next hgreater =>
      refine ⟨by simp, fun w hw => ?_, fun j hj w hw => ?_⟩
      · rcases List.mem_append.mp hw with hw | hw
        · exact (hmax w hw).trans hgreater.le
        · exact (List.mem_singleton.mp hw).le
      · rw [List.getElem?_append_left hj] at hw
        exact (hmax w (List.mem_of_getElem? hw)).trans_lt hgreater
  · next hsmall =>
      refine ⟨by rw [List.getElem?_append_left hlt, hbest], fun w hw => ?_, fun j hj w hw => ?_⟩
      · rcases List.mem_append.mp hw with hw | hw
        · exact hmax w hw
        · exact List.mem_singleton.mp hw ▸ not_lt.mp hsmall
      · rw [List.getElem?_append_left (hj.trans hlt)] at hw
        exact hfirst j hj w hw

theorem bestClass_concat (row : List ℚ) (v : ℚ) :
    bestClass (row ++ [v]) =
      if v > (bestClass row).2 then (row.length, v) else bestClass row := by
  rw [bestClass, List.zipIdx_append, List.foldl_append, Nat.zero_add]
  rfl

/-- **The loop over a row** finds the first of its greatest values. -/
theorem bestClass_isFirstMax {row : List ℚ} (hne : row ≠ [])
    (hlow : ∀ v ∈ row, -1000000000 < v) : IsFirstMax row (bestClass row) := by
  induction row using List.reverseRecOn with
  | nil => exact absurd rfl hne
  | append_singleton row v ih =>
      rw [bestClass_concat]
      by_cases hrow : row = []
      · -- the first value is above the start of the search
        subst hrow
        have hv : v > (bestClass []).2 := hlow v (List.mem_append_right _ List.mem_cons_self)
        rw [if_pos hv]
        exact ⟨rfl, fun w hw => (List.mem_singleton.mp hw).le,
          fun j hj => absurd hj (Nat.not_lt_zero j)⟩
      · exact (ih hrow fun w hw => hlow w (List.mem_append_left _ hw)).concat v

theorem bestClass_eq_firstArgmax {row : List ℚ} (hne : row ≠ [])
    (hlow : ∀ v ∈ row, -1000000000 < v) : (bestClass row).1 = firstArgmax row :=
  (bestClass_isFirstMax hne hlow).eq_firstArgmax

/-- A value added to all values of a step. -/
theorem firstArgmax_add (row : List ℚ) (shift : ℚ) :
    firstArgmax (row.map (· + shift)) = firstArgmax row := by
  rw [firstArgmax, firstArgmax, List.findIdx_map]
  refine congrArg (row.findIdx ·) (funext fun v => ?_)
  simp [List.all_map, Function.comp_def]

/-! ### The collapse of a path -/

/-- What is left of a path after a class. -/
def collapseFrom (prev : ℕ) (path : List ℕ) : List ℕ :=
  (path.destutter' (· ≠ ·) prev).tail.filter (· ≠ kBlankIdx)

theorem collapseFrom_cons (prev idx : ℕ) (path : List ℕ) :
    collapseFrom prev (idx :: path) =
      if idx = prev then collapseFrom prev path
      else (if idx = kBlankIdx then [] else [idx]) ++ collapseFrom idx path := by
  rw [collapseFrom, List.destutter'_cons]
  by_cases hprev : idx = prev
  · rw [if_neg (not_not.mpr hprev.symm), if_pos hprev]
    rfl
  · rw [if_pos (Ne.symm hprev), if_neg hprev, List.tail_cons, destutter'_eq_cons, collapseFrom]
    by_cases hblank : idx = kBlankIdx
    · rw [if_pos hblank, List.filter_cons_of_neg (by simp [hblank])]
      rfl
    · rw [if_neg hblank, List.filter_cons_of_pos (by simp [hblank])]
      rfl

theorem collapse_eq_from (path : List ℕ) : collapse path = collapseFrom kBlankIdx path :=
  (collapse_eq path).symm

/-- What comes before does not tell two ends apart that collapse alike after every class. -/
theorem collapseFrom_append_congr {path path' : List ℕ}
    (h : ∀ prev, collapseFrom prev path = collapseFrom prev path') (before : List ℕ) (prev : ℕ) :
    collapseFrom prev (before ++ path) = collapseFrom prev (before ++ path') := by
  induction before generalizing prev with
  | nil => exact h prev
  | cons idx before ih => rw [List.cons_append, List.cons_append, collapseFrom_cons,
      collapseFrom_cons, ih, ih]

theorem collapseFrom_replicate (idx n : ℕ) (path : List ℕ) :
    collapseFrom idx (List.replicate n idx ++ path) = collapseFrom idx path := by
  induction n with
  | zero => rfl
  | succ n ih => rw [List.replicate_succ, List.cons_append, collapseFrom_cons, if_pos rfl, ih]

/-- A step repeated. -/
theorem collapse_repeat (before after : List ℕ) (idx n : ℕ) :
    collapse (before ++ List.replicate (n + 1) idx ++ after) =
      collapse (before ++ idx :: after) := by
  rw [collapse_eq_from, collapse_eq_from, List.append_assoc]
  refine collapseFrom_append_congr (fun prev => ?_) before kBlankIdx
  rw [List.replicate_succ, List.cons_append, collapseFrom_cons, collapseFrom_cons,
    collapseFrom_replicate]
  split
  · next hprev => rw [← hprev, collapseFrom_replicate]
  · rfl

/-- Blanks between different classes. -/
theorem collapse_blanks (before after : List ℕ) {idx idx' : ℕ} (hne : idx ≠ idx') (n : ℕ) :
    collapse (before ++ idx :: (List.replicate n kBlankIdx ++ idx' :: after)) =
      collapse (before ++ idx :: idx' :: after) := by
  rw [collapse_eq_from, collapse_eq_from]
  refine collapseFrom_append_congr (fun prev => ?_) before kBlankIdx
  -- it is the class before the blanks that counts
  have hfrom : collapseFrom idx (List.replicate n kBlankIdx ++ idx' :: after) =
      collapseFrom idx (idx' :: after) := by
    cases n with
    | zero => rfl
    | succ n =>
        rw [List.replicate_succ, List.cons_append, collapseFrom_cons]
        by_cases hblank : kBlankIdx = idx
        · rw [if_pos hblank, ← hblank, collapseFrom_replicate]
        · rw [if_neg hblank, if_pos rfl, List.nil_append, collapseFrom_replicate,
            collapseFrom_cons, collapseFrom_cons, if_neg (Ne.symm hne)]
          split
          · next hidx => rw [hidx, List.nil_append]
          · rfl
  rw [collapseFrom_cons, collapseFrom_cons, hfrom]
  split
  · next hprev => rw [← hprev, hfrom]
  · rfl

/-! ### The text -/

theorem ctcRows_flatten {rows : List (List ℚ)} {numClasses : ℕ}
    (hrows : ∀ row ∈ rows, row.length = numClasses) (rest : List ℚ) :
    ctcRows (rows.flatten ++ rest) rows.length numClasses = rows := by
  induction rows with
  | nil => rfl
  | cons row rows ih =>
      obtain ⟨hrow, htail⟩ := List.forall_mem_cons.mp hrows
      subst hrow
      have hshift : ∀ t, (((row :: rows).flatten ++ rest).drop ((t + 1) * row.length)).take
          row.length = ((rows.flatten ++ rest).drop (t * row.length)).take row.length := by
        intro t
        rw [List.flatten_cons, List.append_assoc, add_mul, one_mul, Nat.add_comm,
          ← List.drop_drop, List.drop_left]
      have hfirst : ((row :: rows).flatten ++ rest).take row.length = row := by
        rw [List.flatten_cons, List.append_assoc, List.take_left]
      rw [ctcRows, List.length_cons, List.range_succ_eq_map, List.map_cons, List.map_map,
        Nat.zero_mul, List.drop_zero, hfirst]
      refine congrArg (row :: ·) (Eq.trans ?_ (ih htail))
      exact List.map_congr_left fun t _ => hshift t

/-- The specification: the text of the classes of the steps, collapsed. -/
def specText (charset : List String) (rows : List (List ℚ)) : String :=
  pathText charset (collapse (rows.map firstArgmax))

/-- Rows of a class count of at least one, with values above the start of the search. -/
def WellFormed (numClasses : ℕ) (rows : List (List ℚ)) : Prop :=
  ∀ row ∈ rows, row.length = numClasses ∧ ∀ v ∈ row, -1000000000 < v

theorem map_bestClass_eq {numClasses : ℕ} (hclasses : 0 < numClasses) {rows : List (List ℚ)}
    (h : WellFormed numClasses rows) :
    (rows.map fun row => (bestClass row).1) = rows.map firstArgmax := by
  refine List.map_congr_left fun row hrow => ?_
  obtain ⟨hlength, hlow⟩ := h row hrow
  exact bestClass_eq_firstArgmax (List.ne_nil_of_length_pos (hlength ▸ hclasses)) hlow

/-- The text of logits given by their rows. -/
theorem decode_rows (prob : List ℚ → ℚ) (charset : List String) {numClasses : ℕ}
    (hclasses : 0 < numClasses) {rows : List (List ℚ)} (hne : rows ≠ [])
    (h : WellFormed numClasses rows) (rest : List ℚ) :
    (ctcGreedyDecode prob (rows.flatten ++ rest) rows.length numClasses charset).1 =
      specText charset rows := by
  have hsize : rows.length * numClasses ≤ (rows.flatten ++ rest).length := by
    have hflat : rows.flatten.length = rows.length * numClasses := by
      rw [List.length_flatten, List.map_congr_left fun row hrow => (h row hrow).1]
      simp
    rw [List.length_append, hflat]
    exact Nat.le_add_right _ _
  rw [ctcGreedyDecode_text prob _ charset (List.length_pos_iff.mpr hne) hclasses hsize,
    ctcRows_flatten (fun row hrow => (h row hrow).1), map_bestClass_eq hclasses h, specText]

theorem wellFormed_ctcRows {logits : List ℚ} {timeSteps numClasses : ℕ}
    (hsize : timeSteps * numClasses ≤ logits.length) (hlow : ∀ v ∈ logits, -1000000000 < v) :
    WellFormed numClasses (ctcRows logits timeSteps numClasses) := by
  intro row hrow
  obtain ⟨t, ht, rfl⟩ := List.mem_map.mp hrow
  refine ⟨?_, fun v hv => hlow v (List.mem_of_mem_drop (List.mem_of_mem_take hv))⟩
  have hroom : (t + 1) * numClasses ≤ timeSteps * numClasses :=
    Nat.mul_le_mul_right _ (List.mem_range.mp ht)
  rw [add_mul, one_mul] at hroom
  rw [List.length_take, List.length_drop]
  omega

theorem WellFormed.append {numClasses : ℕ} {rows rows' : List (List ℚ)}
    (h : WellFormed numClasses rows) (h' : WellFormed numClasses rows') :
    WellFormed numClasses (rows ++ rows') := fun row hrow =>
  (List.mem_append.mp hrow).elim (h row) (h' row)

theorem WellFormed.cons {numClasses : ℕ} {row : List ℚ} {rows : List (List ℚ)}
    (hrow : row.length = numClasses ∧ ∀ v ∈ row, -1000000000 < v)
    (h : WellFormed numClasses rows) : WellFormed numClasses (row :: rows) :=
  List.forall_mem_cons.mpr ⟨hrow, h⟩

theorem WellFormed.split {numClasses : ℕ} {row : List ℚ} {before after : List (List ℚ)}
    (h : WellFormed numClasses (before ++ row :: after)) :
    WellFormed numClasses before ∧ (row.length = numClasses ∧ ∀ v ∈ row, -1000000000 < v) ∧
      WellFormed numClasses after := by
  obtain ⟨hbefore, hrest⟩ := List.forall_mem_append.mp h
  obtain ⟨hrow, hafter⟩ := List.forall_mem_cons.mp hrest
  exact ⟨hbefore, hrow, hafter⟩

/-- **Decoding is its specification**, and does not change where a step is repeated, where a value
is added to a step, or where blank steps come between steps of different classes. -/
theorem decode_eq_spec (prob : List ℚ → ℚ) (charset : List String) (logits : List ℚ)
    {timeSteps numClasses : ℕ} (htime : 1 ≤ timeSteps) (hclasses : 1 ≤ numClasses)
    (hsize : timeSteps * numClasses ≤ logits.length) (hlow : ∀ v ∈ logits, -1000000000 < v) :
    let rows := ctcRows logits timeSteps numClasses
    let text := (ctcGreedyDecode prob logits timeSteps numClasses charset).1
    text = specText charset rows ∧
    (∀ before row after n rest, rows = before ++ row :: after →
      (ctcGreedyDecode prob
        ((before ++ List.replicate (n + 1) row ++ after).flatten ++ rest)
        (timeSteps + n : ℕ) numClasses charset).1 = text) ∧
    (∀ before row after shift rest, rows = before ++ row :: after →
      (∀ v ∈ row, -1000000000 < v + shift) →
      (ctcGreedyDecode prob ((before ++ row.map (· + shift) :: after).flatten ++ rest)
        timeSteps numClasses charset).1 = text) ∧
    ∀ before row row' after blanks rest, rows = before ++ row :: row' :: after →
      firstArgmax row ≠ firstArgmax row' → WellFormed numClasses blanks →
      (∀ blank ∈ blanks, firstArgmax blank = kBlankIdx) →
      (ctcGreedyDecode prob ((before ++ row :: (blanks ++ row' :: after)).flatten ++ rest)
        (timeSteps + blanks.length : ℕ) numClasses charset).1 = text := by
  intro rows text
  have hwell : WellFormed numClasses rows := wellFormed_ctcRows hsize hlow
  have hlength : rows.length = timeSteps := by simp [rows, ctcRows]
  have htext : text = specText charset rows := by
    rw [specText, ← map_bestClass_eq hclasses hwell]
    exact ctcGreedyDecode_text prob logits charset htime hclasses hsize
  -- other rows with the same text
  have hsame : ∀ (rows' : List (List ℚ)) (rest : List ℚ) (count : ℕ), rows' ≠ [] →
      WellFormed numClasses rows' → rows'.length = count →
      collapse (rows'.map firstArgmax) = collapse (rows.map firstArgmax) →
        (ctcGreedyDecode prob (rows'.flatten ++ rest) count numClasses charset).1 = text := by
    rintro rows' rest count hne hwell' rfl hcollapse
    rw [decode_rows prob charset hclasses hne hwell' rest, htext, specText, specText, hcollapse]
  refine ⟨htext, ?_, ?_, ?_⟩
  · intro before row after n rest hrows
    rw [hrows] at hwell hlength hsame
    obtain ⟨hbefore, hrow, hafter⟩ := hwell.split
    refine hsame _ rest _ (by simp) ((hbefore.append fun r hr => ?_).append hafter) ?_ ?_
    · exact List.eq_of_mem_replicate hr ▸ hrow
    · simp only [List.length_append, List.length_replicate, List.length_cons] at hlength ⊢
      omega
    · simp only [List.map_append, List.map_replicate, List.map_cons]
      exact collapse_repeat _ _ _ _
  · intro before row after shift rest hrows hshift
    rw [hrows] at hwell hlength hsame
    obtain ⟨hbefore, hrow, hafter⟩ := hwell.split
    refine hsame _ rest _ (by simp) (hbefore.append (WellFormed.cons ?_ hafter)) ?_ ?_
    · refine ⟨by rw [List.length_map, hrow.1], fun v hv => ?_⟩
      obtain ⟨w, hw, rfl⟩ := List.mem_map.mp hv
      exact hshift w hw
    · simpa using hlength
    · simp only [List.map_append, List.map_cons, firstArgmax_add]
  · intro before row row' after blanks rest hrows hne hblanks hblank
    rw [hrows] at hwell hlength hsame
    obtain ⟨hbefore, hrow, hafter⟩ := hwell.split
    refine hsame _ rest _ (by simp) (hbefore.append (WellFormed.cons hrow (hblanks.append hafter)))
      ?_ ?_
    · simp only [List.length_append, List.length_cons] at hlength ⊢
      omega
    · have hmap : blanks.map firstArgmax = List.replicate blanks.length kBlankIdx := by
        rw [List.map_congr_left hblank, List.map_const']
      simp only [List.map_append, List.map_cons, hmap]
      exact collapse_blanks _ _ hne _

/-- Two steps of one class and a blank one. -/
def threeSteps : List ℚ := [0, 5, 1, 0, 5, 1, 3, 1, 2]

/-- One letter is read. -/
theorem decode_eq_spec_threeSteps :
    (ctcGreedyDecode (fun _ => 1) threeSteps 3 3 ["", "A", "B"]).1 =
      specText ["", "A", "B"] (ctcRows threeSteps 3 3) :=
  (decode_eq_spec (fun _ => 1) ["", "A", "B"] threeSteps (by decide) (by decide) (by decide)
    (by decide +kernel)).1

end LoongNvr.AiEngine.LprOcrAdapter
