import Mathlib.Data.List.Basic
import Mathlib.Tactic.TypeStar

/-!
# Support — Runs

Runs of a machine given by a step function `step : σ → α → σ`.  A run is a start state and the
list of its actions; `List.foldl step` is its last state.

* `Along step P s as`: `P` holds of every state the run visits, first and last included.
* `EveryStep step G s as`: every action of the run is taken from a state that allows it, `G`.
* `along_of_everyStep`: the invariant rule.  If `G`-steps keep `P`, a run of `G`-steps stays in
  `P`.
* `along_iff_everyStep`: if from a `P`-state exactly the `G`-steps end in a `P`-state, a run
  stays in `P` exactly when all its steps are `G`-steps.
* `along_iff_of_invariant`: the same through an invariant that says more than `P`.
* `foldl_iff_everyStep`: a `P` that does not come back holds at the end of a run exactly when all
  its steps are `G`-steps.
* `EveryStep.of_invariant`: from a condition on the steps to another, through an invariant.
-/

namespace Support

variable {σ α : Type*}

/-- `P` holds of every state the run from `s` along the actions visits. -/
def Along (step : σ → α → σ) (P : σ → Prop) : σ → List α → Prop
  | s, [] => P s
  | s, a :: as => P s ∧ Along step P (step s a) as

/-- Every action of the run from `s` is taken from a state that allows it. -/
def EveryStep (step : σ → α → σ) (G : σ → α → Prop) : σ → List α → Prop
  | _, [] => True
  | s, a :: as => G s a ∧ EveryStep step G (step s a) as

variable {step : σ → α → σ} {P : σ → Prop} {G : σ → α → Prop}

instance instDecidableEveryStep [∀ s a, Decidable (G s a)] :
    ∀ (s : σ) (as : List α), Decidable (EveryStep step G s as)
  | _, [] => inferInstanceAs (Decidable True)
  | s, a :: as =>
      haveI := instDecidableEveryStep (step s a) as
      inferInstanceAs (Decidable (G s a ∧ EveryStep step G (step s a) as))

theorem everyStep_concat {s : σ} {as : List α} {a : α} :
    EveryStep step G s (as ++ [a]) ↔ EveryStep step G s as ∧ G (as.foldl step s) a := by
  induction as generalizing s with
  | nil => simp [EveryStep]
  | cons b as ih => simp only [List.cons_append, EveryStep, ih, List.foldl_cons, and_assoc]

theorem everyStep_append {s : σ} {as bs : List α} :
    EveryStep step G s (as ++ bs) ↔
      EveryStep step G s as ∧ EveryStep step G (as.foldl step s) bs := by
  induction as generalizing s with
  | nil => simp [EveryStep]
  | cons a as ih => simp only [List.cons_append, EveryStep, ih, List.foldl_cons, and_assoc]

/-- Every step, one by one, with what comes before it. -/
theorem everyStep_iff_split {s : σ} {as : List α} :
    EveryStep step G s as ↔
      ∀ pre a post, as = pre ++ a :: post → G (pre.foldl step s) a := by
  constructor
  · rintro h pre a post rfl
    exact (everyStep_append.mp h).2.1
  · intro h
    induction as generalizing s with
    | nil => trivial
    | cons a as ih =>
        refine ⟨h [] a as rfl, ih fun pre b post e => ?_⟩
        exact h (a :: pre) b post (by rw [e, List.cons_append])

theorem everyStep_forall {κ : Type*} {H : κ → σ → α → Prop} {s : σ} {as : List α} :
    EveryStep step (fun s a => ∀ k, H k s a) s as ↔ ∀ k, EveryStep step (H k) s as := by
  induction as generalizing s with
  | nil => simp [EveryStep]
  | cons a as ih => simp only [EveryStep, ih, forall_and]

theorem Along.first {s : σ} : ∀ {as : List α}, Along step P s as → P s
  | [], h => h
  | _ :: _, h => h.1

theorem Along.last {s : σ} {as : List α} (h : Along step P s as) : P (as.foldl step s) := by
  induction as generalizing s with
  | nil => exact h
  | cons a as ih => exact ih h.2

theorem Along.mono {Q : σ → Prop} (hPQ : ∀ s, P s → Q s) {s : σ} {as : List α}
    (h : Along step P s as) : Along step Q s as := by
  induction as generalizing s with
  | nil => exact hPQ s h
  | cons a as ih => exact ⟨hPQ s h.1, ih h.2⟩

theorem Along.and {Q : σ → Prop} {s : σ} {as : List α} (hP : Along step P s as)
    (hQ : Along step Q s as) : Along step (fun s => P s ∧ Q s) s as := by
  induction as generalizing s with
  | nil => exact ⟨hP, hQ⟩
  | cons a as ih => exact ⟨⟨hP.1, hQ.1⟩, ih hP.2 hQ.2⟩

/-- An invariant that steps from `P`-states keep holds as long as `P` does. -/
theorem Along.strengthen {I : σ → Prop} (hkeep : ∀ s a, P s → I s → I (step s a)) {s : σ}
    {as : List α} (h : Along step P s as) (hs : I s) : Along step (fun s => P s ∧ I s) s as := by
  induction as generalizing s with
  | nil => exact ⟨h, hs⟩
  | cons a as ih => exact ⟨⟨h.1, hs⟩, ih h.2 (hkeep s a h.1 hs)⟩

/-- What steps from states of an invariant have in common. -/
theorem EveryStep.of_invariant {I : σ → Prop} {H : σ → α → Prop}
    (hkeep : ∀ s a, I s → G s a → I (step s a)) (himp : ∀ s a, I s → G s a → H s a) {s : σ}
    {as : List α} (hs : I s) (h : EveryStep step G s as) : EveryStep step H s as := by
  induction as generalizing s with
  | nil => trivial
  | cons a as ih => exact ⟨himp s a hs h.1, ih (hkeep s a hs h.1) h.2⟩

/-- The same where every step keeps the invariant. -/
theorem everyStep_of_invariant {I : σ → Prop} (hkeep : ∀ s a, I s → I (step s a))
    (himp : ∀ s a, I s → G s a) {s : σ} (as : List α) (hs : I s) : EveryStep step G s as := by
  induction as generalizing s with
  | nil => trivial
  | cons a as ih => exact ⟨himp s a hs, ih (hkeep s a hs)⟩

/-- **The invariant rule.**  A run of steps that keep `P` stays in `P`. -/
theorem along_of_everyStep (hstep : ∀ s a, P s → G s a → P (step s a)) {s : σ} {as : List α}
    (hs : P s) (h : EveryStep step G s as) : Along step P s as := by
  induction as generalizing s with
  | nil => exact hs
  | cons a as ih => exact ⟨hs, ih (hstep s a hs h.1) h.2⟩

/-- The invariant rule where every step keeps `P`. -/
theorem along_of_step (hstep : ∀ s a, P s → P (step s a)) {s : σ} (as : List α) (hs : P s) :
    Along step P s as := by
  induction as generalizing s with
  | nil => exact hs
  | cons a as ih => exact ⟨hs, ih (hstep s a hs)⟩

/-- The state at the end of a run every step of which keeps `P`. -/
theorem foldl_of_step (hstep : ∀ s a, P s → P (step s a)) {s : σ} (as : List α) (hs : P s) :
    P (as.foldl step s) :=
  (along_of_step hstep as hs).last

theorem foldl_of_everyStep (hstep : ∀ s a, P s → G s a → P (step s a)) {s : σ} {as : List α}
    (hs : P s) (h : EveryStep step G s as) : P (as.foldl step s) :=
  (along_of_everyStep hstep hs h).last

/-- **The exact invariant rule.**  When a step from a `P`-state ends in a `P`-state exactly if
`G` allows it, a run stays in `P` exactly if `G` allows all its steps. -/
theorem along_iff_everyStep (hstep : ∀ s a, P s → (P (step s a) ↔ G s a)) {s : σ} {as : List α}
    (hs : P s) : Along step P s as ↔ EveryStep step G s as := by
  refine ⟨fun h => ?_, fun h => along_of_everyStep (fun s a hs => (hstep s a hs).mpr) hs h⟩
  induction as generalizing s with
  | nil => trivial
  | cons a as ih =>
      have hnext : P (step s a) := h.2.first
      exact ⟨(hstep s a hs).mp hnext, ih hnext h.2⟩

/-- The same through an invariant that says more than `P`: the allowed steps keep it, and a step
that is not allowed ends where `P` is false. -/
theorem along_iff_of_invariant {I : σ → Prop} (himp : ∀ s, I s → P s)
    (hkeep : ∀ s a, I s → G s a → I (step s a)) (hback : ∀ s a, I s → P (step s a) → G s a)
    {s : σ} {as : List α} (hs : I s) : Along step P s as ↔ EveryStep step G s as := by
  refine ⟨fun h => ?_, fun h => (along_of_everyStep hkeep hs h).mono himp⟩
  induction as generalizing s with
  | nil => trivial
  | cons a as ih =>
      have hallowed : G s a := hback s a hs h.2.first
      exact ⟨hallowed, ih (hkeep s a hs hallowed) h.2⟩

/-- Where `P` once false stays false, and exactly the allowed steps keep it, `P` holds at the end of
a run exactly if all its steps are allowed. -/
theorem foldl_iff_everyStep {I : σ → Prop} (hkeep : ∀ s a, I s → I (step s a))
    (hstep : ∀ s a, I s → P s → (P (step s a) ↔ G s a))
    (hfalse : ∀ s a, I s → ¬ P s → ¬ P (step s a)) {s : σ} (as : List α) (hs : I s) (hP : P s) :
    P (as.foldl step s) ↔ EveryStep step G s as := by
  induction as generalizing s with
  | nil => exact iff_of_true hP trivial
  | cons a as ih =>
      by_cases hG : G s a
      · rw [List.foldl_cons, ih (hkeep s a hs) ((hstep s a hs hP).mpr hG), EveryStep]
        exact (and_iff_right hG).symm
      · refine iff_of_false ?_ fun h => hG h.1
        exact (foldl_of_step (P := fun s => I s ∧ ¬ P s)
          (fun s a h => ⟨hkeep s a h.1, hfalse s a h.1 h.2⟩) as
          ⟨hkeep s a hs, fun h => hG ((hstep s a hs hP).mp h)⟩).2

end Support
