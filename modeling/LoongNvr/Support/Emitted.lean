import LoongNvr.Support.Runs
import Mathlib.Data.List.ReduceOption

/-!
# Support — Emitted

Runs of a machine whose steps give something out: `step : σ → α → σ × List ω`.

* `emitted`: what a run gives out, in order.
* `forall_emitted_iff`: all of it has a property exactly when every step's has.
* `forall_emitted_iff_of_invariant`: the same for steps from states that keep an invariant.
* `emitted_eq_of_simulation`: two states that are step by step alike give out the same.
* `emitted_read_eq_of_simulation`: so do two machines, up to what is read off the outputs.
* `map_emitted_eq_of_simulation`: one machine gives out what is read off the outputs of the other.
* `emitted_eq_flatMap`: where what a step gives out follows from its action.
* `stays`: the stays of a list of looks.
* `emitted_eq_flatMap_stays`: a machine that starts anew whenever there is nothing gives out, stay
  by stay, what it gives out from its start.
-/

namespace Support

variable {σ α ω : Type*} {step : σ → α → σ × List ω} {s : σ} {as : List α}

/-- The machine without what it gives out. -/
def silent (step : σ → α → σ × List ω) (s : σ) (a : α) : σ := (step s a).1

/-- What the run from `s` along the actions gives out. -/
def emitted (step : σ → α → σ × List ω) : σ → List α → List ω
  | _, [] => []
  | s, a :: as => (step s a).2 ++ emitted step (step s a).1 as

theorem emitted_append (as bs : List α) :
    emitted step s (as ++ bs) =
      emitted step s as ++ emitted step (as.foldl (silent step) s) bs := by
  induction as generalizing s with
  | nil => rfl
  | cons a as ih =>
      rw [List.cons_append, emitted, emitted, ih, List.append_assoc]
      rfl

variable {P : ω → Prop} {G : σ → α → Prop} {Inv : σ → Prop}

/-- **Everything given out** from states that keep an invariant. -/
theorem forall_emitted_iff_of_invariant (hinv : ∀ s a, Inv s → Inv (silent step s a))
    (hstep : ∀ s a, Inv s → ((∀ o ∈ (step s a).2, P o) ↔ G s a)) (hs : Inv s) :
    (∀ o ∈ emitted step s as, P o) ↔ EveryStep (silent step) G s as := by
  induction as generalizing s with
  | nil => simp [emitted, EveryStep]
  | cons a as ih =>
      simp only [emitted, List.mem_append, or_imp, forall_and, EveryStep, ← hstep s a hs,
        ← ih (hinv s a hs)]
      rfl

/-- **Everything given out** has a property exactly when it is so at every step. -/
theorem forall_emitted_iff (hstep : ∀ s a, (∀ o ∈ (step s a).2, P o) ↔ G s a) :
    (∀ o ∈ emitted step s as, P o) ↔ EveryStep (silent step) G s as := by
  have hinv : ∀ s a, True → (fun _ : σ => True) (silent step s a) := fun _ _ _ => trivial
  exact forall_emitted_iff_of_invariant hinv (fun s a _ => hstep s a) trivial

/-! ### Two states -/

/-- **States that are alike** give out the same, if each step from such states does and leads to
such states. -/
theorem emitted_eq_of_simulation {R : σ → σ → Prop}
    (hout : ∀ s s' a, R s s' → (step s a).2 = (step s' a).2)
    (hkeep : ∀ s s' a, R s s' → R (silent step s a) (silent step s' a)) {s s' : σ} (h : R s s')
    (as : List α) : emitted step s as = emitted step s' as := by
  induction as generalizing s s' with
  | nil => rfl
  | cons a as ih =>
      rw [emitted, emitted, hout s s' a h]
      exact congrArg _ (ih (hkeep s s' a h))

/-- **Machines that are alike** on the allowed actions give out what reads the same, where lists are
read piece by piece. -/
theorem emitted_read_eq_of_simulation {σ' ω' ρ : Type*} {step' : σ' → α → σ' × List ω'}
    {R : σ → σ' → Prop} {allowed : α → Prop} {read : List ω → List ρ} {read' : List ω' → List ρ}
    (hread : ∀ l l', read (l ++ l') = read l ++ read l')
    (hread' : ∀ l l', read' (l ++ l') = read' l ++ read' l')
    (hstep : ∀ s s' a, R s s' → allowed a →
      read (step s a).2 = read' (step' s' a).2 ∧ R (silent step s a) (silent step' s' a))
    {s' : σ'} (h : R s s') (has : ∀ a ∈ as, allowed a) :
    read (emitted step s as) = read' (emitted step' s' as) := by
  induction as generalizing s s' with
  | nil =>
      have hnil : read [] = [] := by simpa using hread [] []
      have hnil' : read' [] = [] := by simpa using hread' [] []
      exact hnil.trans hnil'.symm
  | cons a as ih =>
      obtain ⟨hout, hkeep⟩ := hstep s s' a h (has a List.mem_cons_self)
      rw [emitted, emitted, hread, hread', hout]
      exact congrArg _ (ih hkeep fun b hb => has b (List.mem_cons_of_mem a hb))

/-- Where outputs are read one by one. -/
theorem emitted_map_eq_of_simulation {σ' ω' ρ : Type*} {step' : σ' → α → σ' × List ω'}
    {f : ω → ρ} {g : ω' → ρ} (R : σ → σ' → Prop)
    (hstep : ∀ s s' a, R s s' →
      (step s a).2.map f = (step' s' a).2.map g ∧ R (silent step s a) (silent step' s' a))
    {s' : σ'} (h : R s s') (as : List α) :
    (emitted step s as).map f = (emitted step' s' as).map g := by
  have hstep' : ∀ s s' a, R s s' → (fun _ => True) a →
      (step s a).2.map f = (step' s' a).2.map g ∧ R (silent step s a) (silent step' s' a) :=
    fun s s' a hR _ => hstep s s' a hR
  exact emitted_read_eq_of_simulation (fun _ _ => List.map_append) (fun _ _ => List.map_append)
    hstep' h fun _ _ => trivial

/-- Where one machine gives out what is read off the outputs of the other. -/
theorem map_emitted_eq_of_simulation {σ' ρ : Type*} {step' : σ' → α → σ' × List ρ} {f : ω → ρ}
    (R : σ → σ' → Prop)
    (hstep : ∀ s s' a, R s s' →
      (step s a).2.map f = (step' s' a).2 ∧ R (silent step s a) (silent step' s' a))
    {s' : σ'} (h : R s s') (as : List α) :
    (emitted step s as).map f = emitted step' s' as := by
  have hstep' : ∀ s s' a, R s s' →
      (step s a).2.map f = (step' s' a).2.map id ∧ R (silent step s a) (silent step' s' a) := by
    intro s s' a hR
    rw [List.map_id]
    exact hstep s s' a hR
  rw [emitted_map_eq_of_simulation R hstep' h as, List.map_id]

/-- **Where what a step gives out follows from its action**, in the states of an invariant. -/
theorem emitted_eq_flatMap {allowed : α → Prop} {f : α → List ω}
    (hinv : ∀ s a, Inv s → allowed a → Inv (silent step s a))
    (hout : ∀ s a, Inv s → allowed a → (step s a).2 = f a) (hs : Inv s)
    (has : ∀ a ∈ as, allowed a) : emitted step s as = as.flatMap f := by
  induction as generalizing s with
  | nil => rfl
  | cons a as ih =>
      have hfirst : allowed a := has a List.mem_cons_self
      rw [emitted, List.flatMap_cons, hout s a hs hfirst]
      exact congrArg _ (ih (hinv s a hs hfirst) fun b hb => has b (List.mem_cons_of_mem a hb))

end Support

/-! ### Stays

Something that is there at some times and not at others.  A stay is a maximal run of times at which
it is there.
-/

namespace Support

variable {α ω σ : Type*}

/-- The maximal runs of looks at which something is there. -/
def stays (looks : List (Option α)) : List (List α) :=
  (looks.splitOnP Option.isNone).map List.reduceOption

theorem splitOnP_map_some (stay : List α) :
    (stay.map some).splitOnP Option.isNone = [stay.map some] :=
  List.splitOnP_eq_singleton fun look hlook => by
    obtain ⟨a, -, rfl⟩ := List.mem_map.mp hlook
    rfl

theorem reduceOption_map_some (stay : List α) : (stay.map some).reduceOption = stay := by
  rw [List.reduceOption, List.filterMap_map]
  exact List.filterMap_some

theorem stays_map_some (stay : List α) : stays (stay.map some) = [stay] := by
  rw [stays, splitOnP_map_some, List.map_singleton, reduceOption_map_some]

theorem stays_append_none (stay : List α) (looks : List (Option α)) :
    stays (stay.map some ++ none :: looks) = stay :: stays looks := by
  rw [stays, List.splitOnP_append_cons _ _ rfl, splitOnP_map_some, List.singleton_append,
    List.map_cons, reduceOption_map_some, stays]

/-- A stay is part of what there is. -/
theorem sublist_of_mem_stays {looks : List (Option α)} :
    ∀ stay ∈ stays looks, stay.Sublist looks.reduceOption := by
  -- behind the part of a stay that has been looked at
  have hbehind : ∀ (looks : List (Option α)) (seen : List α),
      ∀ stay ∈ stays (seen.map some ++ looks), stay.Sublist (seen ++ looks.reduceOption) := by
    intro looks
    induction looks with
    | nil =>
        intro seen stay hstay
        rw [List.append_nil, stays_map_some] at hstay
        rw [List.mem_singleton.mp hstay]
        exact List.sublist_append_left _ _
    | cons look looks ih =>
        intro seen stay hstay
        cases look with
        | none =>
            rw [stays_append_none] at hstay
            rcases List.mem_cons.mp hstay with rfl | hlater
            · exact List.sublist_append_left _ _
            · exact (ih [] stay hlater).trans (List.sublist_append_right _ _)
        | some a =>
            have hnext := ih (seen ++ [a]) stay (by simpa using hstay)
            simpa [List.reduceOption_cons_of_some] using hnext
  exact hbehind looks []

variable {step : σ → Option α → σ × List ω} {start : σ}

/-- **A machine that starts anew** whenever there is nothing, stay by stay. -/
theorem emitted_eq_flatMap_stays (hnew : ∀ s, step s none = (start, []))
    (looks : List (Option α)) :
    emitted step start looks =
      (stays looks).flatMap fun stay => emitted step start (stay.map some) := by
  have hbehind : ∀ (looks : List (Option α)) (seen : List α),
      emitted step start (seen.map some ++ looks) =
        (stays (seen.map some ++ looks)).flatMap fun stay =>
          emitted step start (stay.map some) := by
    intro looks
    induction looks with
    | nil =>
        intro seen
        rw [List.append_nil, stays_map_some, List.flatMap_singleton]
    | cons look looks ih =>
        intro seen
        cases look with
        | none =>
            have hlater := ih []
            rw [List.map_nil, List.nil_append] at hlater
            rw [emitted_append, emitted, hnew, List.nil_append, hlater, stays_append_none,
              List.flatMap_cons]
        | some a => simpa using ih (seen ++ [a])
  exact hbehind looks []

/-- Where there is nothing any more it gives out nothing. -/
theorem emitted_of_forall_none (hnew : ∀ s, step s none = (start, [])) {looks : List (Option α)}
    (h : ∀ look ∈ looks, look = none) (s : σ) : emitted step s looks = [] := by
  induction looks generalizing s with
  | nil => rfl
  | cons look looks ih =>
      obtain ⟨rfl, hrest⟩ := List.forall_mem_cons.mp h
      rw [emitted, hnew, ih hrest]
      rfl

end Support
