import LoongNvr.Support.Runs
import Mathlib.Data.Fintype.Defs
import Mathlib.Logic.Function.Basic

/-!
# Support — Program

Programs made of atomic acts on a shared state.  A program goes on after each act with what it saw
of the state before it; `exec i s a` is the state after actor `i` does `a` in `s`.

* `run`: the program with nobody else about.
* `Pool`, `Pool.step`: several programs, one act at a time in any order; `alone` says that a
  program that takes all its turns in a row does what `run` says.
* `EveryNode`: something holds at every place of a program; `Surely`, `Never`: an act of a kind is
  still to come on every way, on no way, through the program.
* `Obligation`: the acts that raise it and discharge it, and what the other acts keep.
* `Pays`: a program that ends what the obligation is for goes on to discharge it.
* `paid_iff`: when all programs have come to their ends, nothing is owed exactly if each raising
  act was done in time: before the end, or with a discharging act still to come.
-/

namespace Support

universe u

/-- A program over states `σ` with acts `α` and result `ρ`. -/
inductive Program (σ α ρ : Type*)
  | done (r : ρ)
  | step (a : α) (next : σ → Program σ α ρ)

namespace Program

variable {σ α ρ ρ' ι : Type*}

/-- One program, then another that is given its result. -/
def bind : Program σ α ρ → (ρ → Program σ α ρ') → Program σ α ρ'
  | done r, f => f r
  | step a next, f => step a fun s => (next s).bind f

instance : Monad (Program σ α) where
  pure := done
  bind := bind

@[simp] theorem pure_eq (r : ρ) : (pure r : Program σ α ρ) = done r := rfl

@[simp] theorem bind_eq {ρ ρ' : Type u} (p : Program σ α ρ) (f : ρ → Program σ α ρ') :
    p >>= f = p.bind f := rfl

@[simp] theorem done_bind (r : ρ) (f : ρ → Program σ α ρ') : (done r).bind f = f r := rfl

@[simp] theorem step_bind (a : α) (next : σ → Program σ α ρ) (f : ρ → Program σ α ρ') :
    (step a next).bind f = step a fun s => (next s).bind f := rfl

theorem bind_assoc {ρ'' : Type*} (p : Program σ α ρ) (f : ρ → Program σ α ρ')
    (g : ρ' → Program σ α ρ'') : (p.bind f).bind g = p.bind fun r => (f r).bind g := by
  induction p with
  | done r => rfl
  | step a next ih => simp only [step_bind, ih]

def isDone : Program σ α ρ → Bool
  | done _ => true
  | step _ _ => false

theorem isDone_iff {p : Program σ α ρ} : p.isDone ↔ ∃ r, p = done r := by
  cases p <;> simp [isDone]

/-- One act, with what it reads. -/
def act (a : α) (read : σ → ρ) : Program σ α ρ := step a fun s => done (read s)

/-- One act after the other. -/
def acts : List α → Program σ α Unit
  | [] => done ()
  | a :: as => step a fun _ => acts as

/-- The program where the condition holds, nothing where it does not. -/
def when (c : Prop) [Decidable c] (p : Program σ α Unit) : Program σ α Unit :=
  if c then p else done ()

/-! ### Alone -/

/-- The result and the last state of a program that runs alone. -/
def run (exec : σ → α → σ) : Program σ α ρ → σ → ρ × σ
  | done r, s => (r, s)
  | step a next, s => (next s).run exec (exec s a)

variable {exec : σ → α → σ}

@[simp] theorem run_done (r : ρ) (s : σ) : (done r).run exec s = (r, s) := rfl

@[simp] theorem run_step (a : α) (next : σ → Program σ α ρ) (s : σ) :
    (step a next).run exec s = (next s).run exec (exec s a) := rfl

theorem run_act_bind (a : α) (read : σ → ρ) (f : ρ → Program σ α ρ') (s : σ) :
    ((act a read).bind f).run exec s = (f (read s)).run exec (exec s a) := rfl

@[simp] theorem run_bind (p : Program σ α ρ) (f : ρ → Program σ α ρ') (s : σ) :
    (p.bind f).run exec s = (f (p.run exec s).1).run exec (p.run exec s).2 := by
  induction p generalizing s with
  | done r => rfl
  | step a next ih => exact ih s (exec s a)

@[simp] theorem run_acts (as : List α) (s : σ) : (acts as).run exec s = ((), as.foldl exec s) := by
  induction as generalizing s with
  | nil => rfl
  | cons a as ih => exact ih (exec s a)

theorem run_acts_bind (as : List α) (f : Unit → Program σ α ρ) (s : σ) :
    ((acts as).bind f).run exec s = (f ()).run exec (as.foldl exec s) := by
  rw [run_bind, run_acts]

/-- What every act keeps, a program keeps. -/
theorem run_keeps {J : σ → Prop} (hexec : ∀ s a, J s → J (exec s a)) (p : Program σ α ρ) {s : σ}
    (hs : J s) : J (p.run exec s).2 := by
  induction p generalizing s with
  | done r => exact hs
  | step a next ih => exact ih s (hexec s a hs)

/-! ### Places of a program -/

/-- `P` holds at every place of the program, whatever it sees. -/
def EveryNode (P : α → (σ → Program σ α ρ) → Prop) : Program σ α ρ → Prop
  | done _ => True
  | step a next => P a next ∧ ∀ s, (next s).EveryNode P

/-- `P` holds of every act of the program. -/
def All (P : α → Prop) : Program σ α ρ → Prop := EveryNode fun a _ => P a

variable {P : α → Prop}

theorem All.bind {p : Program σ α ρ} {f : ρ → Program σ α ρ'} (hp : p.All P)
    (hf : ∀ r, (f r).All P) : (p.bind f).All P := by
  induction p with
  | done r => exact hf r
  | step a next ih => exact ⟨hp.1, fun s => ih s (hp.2 s)⟩

theorem All.act {a : α} (h : P a) (read : σ → ρ) : (act a read).All P := ⟨h, fun _ => trivial⟩

theorem All.acts {as : List α} (h : ∀ a ∈ as, P a) : (acts as : Program σ α Unit).All P := by
  induction as with
  | nil => trivial
  | cons a as ih =>
      obtain ⟨ha, has⟩ := List.forall_mem_cons.mp h
      exact ⟨ha, fun _ => ih has⟩

theorem All.when {c : Prop} [Decidable c] {p : Program σ α Unit} (h : c → p.All P) :
    (Program.when c p).All P := by
  unfold Program.when
  split
  · exact h ‹c›
  · trivial

theorem All.mono {Q : α → Prop} (hPQ : ∀ a, P a → Q a) {p : Program σ α ρ} (h : p.All P) :
    p.All Q := by
  induction p with
  | done r => trivial
  | step a next ih => exact ⟨hPQ a h.1, fun s => ih s (h.2 s)⟩

/-- **The invariant rule** of a program that runs alone. -/
theorem All.run {J : σ → Prop} {p : Program σ α ρ} (h : p.All P)
    (hexec : ∀ s a, P a → J s → J (exec s a)) {s : σ} (hs : J s) : J (p.run exec s).2 := by
  induction p generalizing s with
  | done r => exact hs
  | step a next ih => exact ih s (h.2 s) (hexec s a h.1 hs)

/-- On every way through the program from states of `I`, an act of the kind `q` is to come. -/
def Surely (I : σ → Prop) (q : α → Prop) : Program σ α ρ → Prop
  | done _ => False
  | step a next => q a ∨ ∀ s, I s → (next s).Surely I q

/-- No way through the program from states of `I` has an act of the kind `q` to come. -/
def Never (I : σ → Prop) (q : α → Prop) : Program σ α ρ → Prop
  | done _ => True
  | step a next => ¬ q a ∧ ∀ s, I s → (next s).Never I q

/-- At every place of the program it is settled whether an act of the kind `q` is to come. -/
def Decided (I : σ → Prop) (q : α → Prop) : Program σ α ρ → Prop :=
  EveryNode fun a next => (step a next).Surely I q ∨ (step a next).Never I q

variable {I : σ → Prop} {q : α → Prop}

theorem Decided.surely_or_never {p : Program σ α ρ} (h : p.Decided I q) :
    p.Surely I q ∨ p.Never I q := by
  cases p with
  | done r => exact .inr trivial
  | step a next => exact h.1

theorem All.never {p : Program σ α ρ} (h : p.All fun a => ¬ q a) : p.Never I q := by
  induction p with
  | done r => trivial
  | step a next ih => exact ⟨h.1, fun s _ => ih s (h.2 s)⟩

theorem All.decided {p : Program σ α ρ} (h : p.All fun a => ¬ q a) : p.Decided I q := by
  induction p with
  | done r => trivial
  | step a next ih => exact ⟨.inr (All.never h), fun s => ih s (h.2 s)⟩

/-- An act that nothing depends on leaves it settled. -/
theorem Decided.const {a : α} {p : Program σ α ρ} (h : p.Decided I q) :
    (step a fun _ => p).Decided I q := by
  refine ⟨?_, fun _ => h⟩
  by_cases e : q a
  · exact .inl (.inl e)
  · exact h.surely_or_never.imp (fun hp => .inr fun _ _ => hp) fun hp => ⟨e, fun _ _ => hp⟩

theorem Decided.acts_bind {as : List α} {f : Unit → Program σ α ρ} (h : (f ()).Decided I q) :
    ((acts as).bind f).Decided I q := by
  induction as with
  | nil => exact h
  | cons a as ih => exact ih.const

theorem Surely.bind {p : Program σ α ρ} {f : ρ → Program σ α ρ'}
    (hf : ∀ r, (f r).Surely I q) : (p.bind f).Surely I q := by
  induction p with
  | done r => exact hf r
  | step a next ih => exact .inr fun s _ => ih s

/-- Acts one after the other, with one of the kind among them. -/
theorem Surely.acts_bind {as : List α} {f : Unit → Program σ α ρ} {a : α} (ha : a ∈ as)
    (hq : q a) : ((acts as).bind f).Surely I q := by
  induction as with
  | nil => cases ha
  | cons b as ih =>
      rcases List.mem_cons.mp ha with rfl | ha
      · exact .inl hq
      · exact .inr fun _ _ => ih ha

/-- The last act of every way through the program is of the kind `q`. -/
def EndsWith (q : α → Prop) : Program σ α ρ → Prop
  | done _ => False
  | step a next => ∀ s, (q a ∧ ∃ r, next s = done r) ∨ (next s).EndsWith q

theorem EndsWith.of_bind {a : α} (ha : q a) (p : Program σ α ρ) (f : ρ → ρ') :
    (p.bind fun r => step a fun _ => done (f r)).EndsWith q := by
  induction p with
  | done r => exact fun _ => .inl ⟨ha, f r, rfl⟩
  | step b next ih => exact fun s => .inr (ih s)

end Program

/-! ### Several programs -/

/-- Programs that share a state. -/
structure Pool (ι σ α ρ : Type*) where
  state : σ
  rest : ι → Program σ α ρ

namespace Pool

variable {ι σ α ρ : Type*} [DecidableEq ι] (exec : ι → σ → α → σ)

/-- Program `i` does its next act. -/
def step (w : Pool ι σ α ρ) (i : ι) : Pool ι σ α ρ :=
  match w.rest i with
  | .done _ => w
  | .step a next =>
      { state := exec i w.state a, rest := Function.update w.rest i (next w.state) }

/-- Every program has come to its end. -/
def Completed (w : Pool ι σ α ρ) : Prop := ∀ i, ∃ r, w.rest i = .done r

variable {exec}

instance [Fintype ι] (w : Pool ι σ α ρ) : Decidable w.Completed :=
  decidable_of_iff (∀ i, (w.rest i).isDone) (forall_congr' fun _ => Program.isDone_iff)

theorem step_of_done {w : Pool ι σ α ρ} {i : ι} {r : ρ} (h : w.rest i = .done r) :
    w.step exec i = w := by
  simp only [step, h]

theorem step_of_step {w : Pool ι σ α ρ} {i : ι} {a : α} {next : σ → Program σ α ρ}
    (h : w.rest i = .step a next) :
    w.step exec i =
      { state := exec i w.state a, rest := Function.update w.rest i (next w.state) } := by
  simp only [step, h]

/-- **Alone.**  A program that takes all its turns in a row does what `run` says, and the others
stay where they are. -/
theorem alone (i : ι) (p : Program σ α ρ) (w : Pool ι σ α ρ) (h : w.rest i = p) :
    ∃ turns, (List.replicate turns i).foldl (step exec) w =
      { state := (p.run (exec i) w.state).2
        rest := Function.update w.rest i (.done (p.run (exec i) w.state).1) } := by
  induction p generalizing w with
  | done r =>
      have hrest : Function.update w.rest i (.done r) = w.rest := by
        rw [← h, Function.update_eq_self]
      exact ⟨0, by rw [Program.run_done, hrest]; rfl⟩
  | step a next ih =>
      obtain ⟨turns, hturns⟩ := ih w.state (w.step exec i) (by rw [step_of_step h]; simp)
      refine ⟨turns + 1, ?_⟩
      rw [List.replicate_succ, List.foldl_cons, hturns, step_of_step h]
      simp

/-- What holds at every place of the programs and is kept by the acts. -/
theorem everyNode_step {P : α → (σ → Program σ α ρ) → Prop} {w : Pool ι σ α ρ}
    (h : ∀ j, (w.rest j).EveryNode P) (i j : ι) : ((w.step exec i).rest j).EveryNode P := by
  cases hi : w.rest i with
  | done r =>
      rw [step_of_done hi]
      exact h j
  | step a next =>
      rw [step_of_step hi]
      by_cases e : j = i
      · subst e
        have := h j
        rw [hi] at this
        simpa using this.2 w.state
      · simpa [e] using h j

end Pool
end Support

/-! ### Obligations

Something that one act of a program raises and another has to discharge, once a state is reached
from which nobody discharges it for any other reason: a registration that outlives what it is
for, unless the call that takes it back is still on its way.
-/

namespace Support

variable {ι σ α ρ : Type*} [DecidableEq ι]

/-- What is owed in the states `gone`. -/
structure Obligation (exec : ι → σ → α → σ) where
  gone : σ → Prop
  owed : σ → Prop
  raises : σ → α → Prop
  discharges : α → Prop
  gone_keep : ∀ i s a, gone s → gone (exec i s a)
  owed_raise : ∀ i s a, raises s a → owed (exec i s a)
  owed_discharge : ∀ i s a, discharges a → ¬ owed (exec i s a)
  owed_keep : ∀ i s a, ¬ raises s a → ¬ discharges a → (owed (exec i s a) ↔ owed s)

namespace Obligation

variable {exec : ι → σ → α → σ} (ob : Obligation exec)

/-- Nothing is owed in a state of the kind `gone`. -/
def Paid (s : σ) : Prop := ob.gone s → ¬ ob.owed s

/-- An act that makes a state `gone` leaves the program with a discharging act to come. -/
def Ends (a : α) (next : σ → Program σ α ρ) : Prop :=
  ∀ i s, ¬ ob.gone s → ob.gone (exec i s a) → (next s).Surely ob.gone ob.discharges

/-- A program that knows at every place whether it will discharge, and does after it ended what
the obligation is for. -/
structure Pays (p : Program σ α ρ) : Prop where
  decided : p.Decided ob.gone ob.discharges
  ends : p.EveryNode ob.Ends

/-- Some program will still discharge. -/
def Pending (w : Pool ι σ α ρ) : Prop := ∃ j, (w.rest j).Surely ob.gone ob.discharges

/-- The next act of program `i`, if it raises the obligation, does it in time. -/
def InTime (w : Pool ι σ α ρ) (i : ι) : Prop :=
  ∀ a next, w.rest i = .step a next → ob.raises w.state a → ob.gone w.state → ob.Pending w

variable {ob}

omit [DecidableEq ι] in
/-- Acts none of which makes a state `gone`. -/
theorem ends_of_all {p : Program σ α ρ}
    (h : p.All fun a => ∀ i s, ¬ ob.gone s → ¬ ob.gone (exec i s a)) : p.EveryNode ob.Ends := by
  induction p with
  | done r => trivial
  | step a next ih =>
      exact ⟨fun i s hs hgone => absurd hgone (h.1 i s hs), fun s => ih s (h.2 s)⟩

/-- A program that will discharge still will, unless it just did. -/
theorem pending_step {w : Pool ι σ α ρ} {i : ι} {a : α} {next : σ → Program σ α ρ}
    (hi : w.rest i = .step a next) (hgone : ob.gone w.state) (h : ob.Pending w) :
    ob.discharges a ∨ ob.Pending (w.step exec i) := by
  obtain ⟨j, hj⟩ := h
  rw [Pool.step_of_step hi]
  by_cases e : j = i
  · subst e
    rw [hi] at hj
    rcases hj with ha | hnext
    · exact .inl ha
    · exact .inr ⟨j, by simpa using hnext w.state hgone⟩
  · exact .inr ⟨j, by simpa [e] using hj⟩

/-- **A step in time** leaves nothing owed that no program will discharge. -/
theorem paid_or_pending_step {w : Pool ι σ α ρ} {i : ι} (hpays : ∀ j, ob.Pays (w.rest j))
    (h : ob.Paid w.state ∨ ob.Pending w) (hin : ob.InTime w i) :
    ob.Paid (w.step exec i).state ∨ ob.Pending (w.step exec i) := by
  cases hi : w.rest i with
  | done r => rwa [Pool.step_of_done hi]
  | step a next =>
      by_cases hgone : ob.gone w.state
      · have hpaid : ob.Pending w → ob.Paid (w.step exec i).state ∨ ob.Pending (w.step exec i) := by
          intro hpending
          refine (pending_step hi hgone hpending).imp_left fun ha _ => ?_
          rw [Pool.step_of_step hi]
          exact ob.owed_discharge i w.state a ha
        rcases h with h | h
        · -- a new debt is raised in time, so somebody has still to pay
          by_cases hraise : ob.raises w.state a
          · exact hpaid (hin a next hi hraise hgone)
          · left
            intro _
            rw [Pool.step_of_step hi]
            by_cases ha : ob.discharges a
            · exact ob.owed_discharge i w.state a ha
            · exact (ob.owed_keep i w.state a hraise ha).not.mpr (h hgone)
        · exact hpaid h
      · by_cases hnext : ob.gone (exec i w.state a)
        · -- the step that puts it away leaves the payment to its own program
          have hends := (hpays i).ends
          rw [hi] at hends
          right
          refine ⟨i, ?_⟩
          rw [Pool.step_of_step hi]
          simpa using hends.1 i w.state hgone hnext
        · left
          intro habs
          rw [Pool.step_of_step hi] at habs
          exact absurd habs hnext

/-- What is owed and will not be discharged by any program. -/
structure Lost (ob : Obligation exec) (w : Pool ι σ α ρ) : Prop where
  gone : ob.gone w.state
  owed : ob.owed w.state
  never : ∀ j, (w.rest j).Never ob.gone ob.discharges

theorem Lost.step {w : Pool ι σ α ρ} (h : ob.Lost w) (i : ι) : ob.Lost (w.step exec i) := by
  cases hi : w.rest i with
  | done r => rwa [Pool.step_of_done hi]
  | step a next =>
      have hnever := h.never i
      rw [hi] at hnever
      rw [Pool.step_of_step hi]
      refine ⟨ob.gone_keep i w.state a h.gone, ?_, fun j => ?_⟩
      · by_cases hraise : ob.raises w.state a
        · exact ob.owed_raise i w.state a hraise
        · exact (ob.owed_keep i w.state a hraise hnever.1).mpr h.owed
      · by_cases e : j = i
        · subst e
          simpa using hnever.2 w.state h.gone
        · simpa [e] using h.never j

/-- **A step too late** loses the obligation. -/
theorem lost_of_late {w : Pool ι σ α ρ} {i : ι} (hpays : ∀ j, ob.Pays (w.rest j))
    (h : ¬ ob.InTime w i) : ob.Lost (w.step exec i) := by
  simp only [InTime, not_forall] at h
  obtain ⟨a, next, hi, hraise, hgone, hpending⟩ := h
  have hnever : ∀ j, (w.rest j).Never ob.gone ob.discharges := fun j =>
    (hpays j).decided.surely_or_never.resolve_left fun hs => hpending ⟨j, hs⟩
  have hi' := hnever i
  rw [hi] at hi'
  rw [Pool.step_of_step hi]
  refine ⟨ob.gone_keep i w.state a hgone, ob.owed_raise i w.state a hraise, fun j => ?_⟩
  by_cases e : j = i
  · subst e
    simpa using hi'.2 w.state hgone
  · simpa [e] using hnever j

theorem pays_step {w : Pool ι σ α ρ} (h : ∀ j, ob.Pays (w.rest j)) (i j : ι) :
    ob.Pays ((w.step exec i).rest j) where
  decided := Pool.everyNode_step (fun j => (h j).decided) i j
  ends := Pool.everyNode_step (fun j => (h j).ends) i j

/-- **Paid at the end.**  Where every program that ends what the obligation is for goes on to
discharge it, nothing is owed when all have come to their ends exactly if every act that raises it
was done in time. -/
theorem paid_iff {w : Pool ι σ α ρ} {sched : List ι} (hpays : ∀ j, ob.Pays (w.rest j))
    (h : ob.Paid w.state ∨ ob.Pending w) (hdone : (sched.foldl (Pool.step exec) w).Completed) :
    ob.Paid (sched.foldl (Pool.step exec) w).state ↔
      EveryStep (Pool.step exec) ob.InTime w sched := by
  induction sched generalizing w with
  | nil =>
      have hnot : ¬ ob.Pending w := by
        rintro ⟨j, hj⟩
        obtain ⟨r, hr⟩ := hdone j
        rw [List.foldl_nil] at hr
        rw [hr] at hj
        exact hj
      exact iff_of_true (h.resolve_right hnot) trivial
  | cons i sched ih =>
      by_cases hin : ob.InTime w i
      · rw [EveryStep, List.foldl_cons,
          ih (pays_step hpays i) (paid_or_pending_step hpays h hin) hdone]
        exact (and_iff_right hin).symm
      · have hlost : ob.Lost (sched.foldl (Pool.step exec) (w.step exec i)) :=
          foldl_of_step (fun w i hw => hw.step i) sched (lost_of_late hpays hin)
        exact iff_of_false (fun hpaid => hpaid hlost.gone hlost.owed) fun hall => hin hall.1

end Obligation
end Support
