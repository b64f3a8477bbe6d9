import Mathlib.Data.List.GetD
import Mathlib.Tactic.TypeStar

/-!
# Support — Line

Stations in a row, each with a queue of its own in front of it.  The worker of a station takes an
item from its queue and may leave items to be passed on, which reach the next station's queue one
by one; a station may also do something by itself.  All stations share a state, which others may
change.  Every order of these steps is a run.

What the queues do is a parameter: a push may drop items, but makes up none.

* `LineInv.step`: the invariant of a line, from what the work of each station keeps.
* `LineInv.taken`: what the invariant says of the item a worker takes.
* `Line.step_queues`: what neither a push nor a pop changes of the queues.
* `mem_emitted`: what is emitted comes from a station by itself or from the item taken.
-/

namespace Support

/-- What a queue does to its contents. -/
structure QueueOps (Q τ : Type*) where
  contents : Q → List τ
  push : Q → τ → Q
  pop : Q → Option (τ × Q)
  close : Q → Q
  mem_push : ∀ {q : Q} {x y : τ}, y ∈ contents (push q x) → y ∈ contents q ∨ y = x
  mem_pop : ∀ {q q' : Q} {x : τ}, pop q = some (x, q') → x ∈ contents q
  pop_subset : ∀ {q q' : Q} {x : τ}, pop q = some (x, q') → contents q' ⊆ contents q
  close_subset : ∀ {q : Q}, contents (close q) ⊆ contents q

/-- What a piece of work leaves: the station, the shared state, items to pass on, and what it
emits to the outside. -/
structure Work (σ ω τ ε : Type*) where
  state : σ
  shared : ω
  out : List τ := []
  events : List ε := []

/-- What the stations of a line do with an item, and by themselves, given an input `ι` from the
outside. -/
structure Line (σ ω τ Q ι ε : Type*) extends QueueOps Q τ where
  work : ι → ω → σ → τ → Work σ ω τ ε
  tick : ι → ω → σ → Work σ ω τ ε

/-- A station: its state, its queue, and what its worker has still to pass on. -/
structure Station (σ τ Q : Type*) where
  state : σ
  queue : Q
  outgoing : List τ := []

/-- The state of a line. -/
structure LineState (σ ω τ Q : Type*) where
  stations : List (Station σ τ Q)
  shared : ω

/-- A step: a station does something by itself, its worker takes an item or passes one on, its
queue is closed, or others change the shared state. -/
inductive LineAction (ω ι : Type*)
  | tick (i : ℕ) (input : ι)
  | take (i : ℕ) (input : ι)
  | pass (i : ℕ)
  | close (i : ℕ)
  | outside (shared : ω)

variable {σ ω τ Q ι ε : Type*}

namespace Line

/-- The item a worker takes, and the queue without it; it takes none while it has items to pass
on. -/
def next? (L : Line σ ω τ Q ι ε) (t : Station σ τ Q) : Option (τ × Q) :=
  match t.outgoing with
  | [] => L.pop t.queue
  | _ :: _ => none

/-- The line after a step. -/
def step (L : Line σ ω τ Q ι ε) (s : LineState σ ω τ Q) :
    LineAction ω ι → LineState σ ω τ Q
  | .tick i input =>
      match s.stations[i]? with
      | none => s
      | some t =>
          let w := L.tick input s.shared t.state
          { stations := s.stations.set i { t with state := w.state, outgoing := t.outgoing ++ w.out }
            shared := w.shared }
  | .take i input =>
      match s.stations[i]? with
      | none => s
      | some t =>
          match L.next? t with
          | none => s
          | some (x, queue) =>
              let w := L.work input s.shared t.state x
              { stations := s.stations.set i { state := w.state, queue := queue, outgoing := w.out }
                shared := w.shared }
  | .pass i =>
      match s.stations[i]? with
      | none => s
      | some t =>
          match t.outgoing with
          | [] => s
          | x :: rest =>
              { s with
                stations := (s.stations.set i { t with outgoing := rest }).modify (i + 1)
                  fun u => { u with queue := L.push u.queue x } }
  | .close i =>
      { s with stations := s.stations.modify i fun t => { t with queue := L.close t.queue } }
  | .outside shared => { s with shared := shared }

/-- What a step emits. -/
def emitted (L : Line σ ω τ Q ι ε) (s : LineState σ ω τ Q) : LineAction ω ι → List ε
  | .tick i input =>
      match s.stations[i]? with
      | none => []
      | some t => (L.tick input s.shared t.state).events
  | .take i input =>
      match s.stations[i]? with
      | none => []
      | some t =>
          match L.next? t with
          | none => []
          | some (x, _) => (L.work input s.shared t.state x).events
  | _ => []

/-- What a run emits. -/
def runEvents (L : Line σ ω τ Q ι ε) (s : LineState σ ω τ Q) : List (LineAction ω ι) → List ε
  | [] => []
  | a :: as => L.emitted s a ++ runEvents L (L.step s a) as

/-- In this step the worker of station `i`, which is `t`, takes the item `x`. -/
structure Takes (L : Line σ ω τ Q ι ε) (s : LineState σ ω τ Q) (a : LineAction ω ι) (i : ℕ)
    (t : Station σ τ Q) (x : τ) (input : ι) : Prop where
  action : a = .take i input
  station : s.stations[i]? = some t
  next : ∃ queue, L.next? t = some (x, queue)

variable {L : Line σ ω τ Q ι ε} {s : LineState σ ω τ Q} {a : LineAction ω ι}

theorem pop_of_next? {t : Station σ τ Q} {x : τ} {queue : Q} (h : L.next? t = some (x, queue)) :
    L.pop t.queue = some (x, queue) := by
  unfold next? at h
  split at h
  · exact h
  · cases h

/-- A property of all that steps from states of an invariant emit. -/
theorem runEvents_of_invariant {I : LineState σ ω τ Q → Prop} {R : ε → Prop}
    (hkeep : ∀ s a, I s → I (L.step s a)) (hemit : ∀ s a, I s → ∀ e ∈ L.emitted s a, R e)
    (hs : I s) (as : List (LineAction ω ι)) : ∀ e ∈ L.runEvents s as, R e := by
  induction as generalizing s with
  | nil =>
      intro e he
      cases he
  | cons a as ih =>
      intro e he
      rcases List.mem_append.mp he with he | he
      · exact hemit s a hs e he
      · exact ih (hkeep s a hs) e he

/-- The last step of a run emits. -/
theorem mem_runEvents_concat {as : List (LineAction ω ι)} {e : ε}
    (h : e ∈ L.emitted (as.foldl L.step s) a) : e ∈ L.runEvents s (as ++ [a]) := by
  induction as generalizing s with
  | nil => exact List.mem_append_left _ h
  | cons b as ih => exact List.mem_append_right _ (ih h)

/-- **What is emitted** comes from what a station does by itself, or from the item taken. -/
theorem mem_emitted {e : ε} (h : e ∈ L.emitted s a) :
    (∃ i t input, a = .tick i input ∧ s.stations[i]? = some t ∧
      e ∈ (L.tick input s.shared t.state).events) ∨
    ∃ i t x input, L.Takes s a i t x input ∧ e ∈ (L.work input s.shared t.state x).events := by
  cases a with
  | tick i input =>
      simp only [emitted] at h
      split at h
      · cases h
      · next t ht => exact .inl ⟨i, t, input, rfl, ht, h⟩
  | take i input =>
      simp only [emitted] at h
      split at h
      · cases h
      · next t ht =>
          split at h
          · cases h
          · next x queue hnext => exact .inr ⟨i, t, x, input, ⟨rfl, ht, queue, hnext⟩, h⟩
  | pass _ | close _ | outside _ => cases h

/-- The work on a taken item is emitted, and leaves its shared state. -/
theorem Takes.emitted {i : ℕ} {t : Station σ τ Q} {x : τ} {input : ι}
    (h : L.Takes s a i t x input) :
    L.emitted s a = (L.work input s.shared t.state x).events ∧
      (L.step s a).shared = (L.work input s.shared t.state x).shared := by
  obtain ⟨rfl, ht, queue, hnext⟩ := h
  simp only [Line.emitted, Line.step, ht, hnext, and_self]

theorem Takes.mem_emitted {i : ℕ} {t : Station σ τ Q} {x : τ} {input : ι}
    (h : L.Takes s a i t x input) {e : ε} (he : e ∈ (L.work input s.shared t.state x).events) :
    e ∈ L.emitted s a := by
  rw [h.emitted.1]
  exact he

/-! ### Carrying an item on -/

/-- Work on a taken item, and passing on the only item it leaves: the two stations change. -/
theorem Takes.carry {i : ℕ} {t u : Station σ τ Q} {x y : τ} {input : ι}
    (h : L.Takes s (.take i input) i t x input)
    (hout : (L.work input s.shared t.state x).out = [y]) (hu : s.stations[i + 1]? = some u) :
    let s' := L.step (L.step s (.take i input)) (.pass i)
    s'.shared = (L.work input s.shared t.state x).shared ∧
      s'.stations[i + 1]? = some { u with queue := L.push u.queue y } ∧
      ∀ j, i + 1 < j → s'.stations[j]? = s.stations[j]? := by
  obtain ⟨-, ht, queue, hnext⟩ := h
  have hi : i < s.stations.length := (List.getElem?_eq_some_iff.mp ht).1
  simp only [step, ht, hnext, hout, List.getElem?_set_self hi]
  refine ⟨trivial, ?_, fun j hij => ?_⟩
  · rw [List.getElem?_modify_eq, List.getElem?_set_ne (by omega), List.getElem?_set_ne (by omega),
      hu]
    rfl
  · have hne : i ≠ j := by omega
    rw [List.getElem?_modify_ne _ _ (Nat.ne_of_lt hij), List.getElem?_set_ne hne,
      List.getElem?_set_ne hne]

/-- The worker of a station that has nothing to pass on takes what its queue gives. -/
theorem takes_pushed {i : ℕ} {u : Station σ τ Q} {x : τ} {queue : Q} (input : ι)
    (hu : s.stations[i]? = some { u with queue := L.push u.queue x }) (hfree : u.outgoing = [])
    (hpop : L.pop (L.push u.queue x) = some (x, queue)) :
    L.Takes s (.take i input) i { u with queue := L.push u.queue x } x input :=
  ⟨rfl, hu, queue, by rw [next?, hfree]; exact hpop⟩

/-! ### What the queues keep -/

/-- What neither a push nor a pop changes of a queue stays as long as none is closed. -/
theorem step_queues {β : Type*} (f : Q → β) (hpush : ∀ q x, f (L.push q x) = f q)
    (hpop : ∀ {q q' x}, L.pop q = some (x, q') → f q' = f q) (hclose : ∀ i, a ≠ .close i) :
    (L.step s a).stations.map (fun t => f t.queue) = s.stations.map fun t => f t.queue := by
  have hset : ∀ {i t u}, s.stations[i]? = some t → f u.queue = f t.queue →
      (s.stations.set i u).map (fun t => f t.queue) = s.stations.map fun t => f t.queue := by
    intro i t u ht hqueue
    obtain ⟨hi, rfl⟩ := List.getElem?_eq_some_iff.mp ht
    have hself : (s.stations.set i s.stations[i]).map (fun t => f t.queue) =
        (s.stations.map fun t => f t.queue).set i (f s.stations[i].queue) := List.map_set
    rw [List.map_set, hqueue, ← hself, List.set_getElem_self hi]
  cases a with
  | tick i input =>
      simp only [step]
      split
      · rfl
      · next t ht => exact hset ht rfl
  | take i input =>
      simp only [step]
      split
      · rfl
      · next t ht =>
          split
          · rfl
          · next x queue hnext => exact hset ht (hpop (pop_of_next? hnext))
  | pass i =>
      simp only [step]
      split
      · rfl
      · next t ht =>
          split
          · rfl
          · next x rest hout =>
              -- the outgoing item leaves, and the next station's queue takes it
              rw [← hset (u := { t with outgoing := rest }) ht rfl]
              refine List.ext_getElem? fun j => ?_
              rw [List.getElem?_map, List.getElem?_map, List.getElem?_modify]
              cases (s.stations.set i { t with outgoing := rest })[j]? with
              | none => rfl
              | some u =>
                  by_cases hj : i + 1 = j
                  · simp [hj, hpush]
                  · simp [hj]
  | close i => exact absurd rfl (hclose i)
  | outside shared => rfl

end Line

/-! ### Invariants -/

/-- Every waiting item suits its station, every leaving one the next, and every station is in a
state that suits its place. -/
structure LineInv (L : Line σ ω τ Q ι ε) (P : ℕ → τ → Prop) (S : ℕ → σ → Prop)
    (s : LineState σ ω τ Q) : Prop where
  waiting : ∀ i t, s.stations[i]? = some t → ∀ x ∈ L.contents t.queue, P i x
  leaving : ∀ i t, s.stations[i]? = some t → ∀ x ∈ t.outgoing, P (i + 1) x
  suited : ∀ i t, s.stations[i]? = some t → S i t.state

namespace LineInv

variable {L : Line σ ω τ Q ι ε} {P : ℕ → τ → Prop} {S : ℕ → σ → Prop} {s : LineState σ ω τ Q}

/-- A piece of work keeps the station and leaves items for the next one. -/
def Keeps (P : ℕ → τ → Prop) (S : ℕ → σ → Prop) (i : ℕ) (w : Work σ ω τ ε) : Prop :=
  S i w.state ∧ ∀ y ∈ w.out, P (i + 1) y

/-- One station replaced by one that suits its place. -/
theorem set (h : LineInv L P S s) {i : ℕ} {t : Station σ τ Q} {shared : ω}
    (hwaiting : ∀ x ∈ L.contents t.queue, P i x) (hleaving : ∀ x ∈ t.outgoing, P (i + 1) x)
    (hsuited : S i t.state) :
    LineInv L P S { stations := s.stations.set i t, shared := shared } := by
  have hget : ∀ j u, (s.stations.set i t)[j]? = some u →
      (j = i ∧ u = t) ∨ s.stations[j]? = some u := by
    intro j u hu
    rw [List.getElem?_set] at hu
    split at hu
    · split at hu
      · cases hu
        rename_i hij _
        exact .inl ⟨hij.symm, rfl⟩
      · cases hu
    · exact .inr hu
  refine ⟨?_, ?_, ?_⟩
  · intro j u hu
    rcases hget j u hu with ⟨rfl, rfl⟩ | hold
    · exact hwaiting
    · exact h.waiting j u hold
  · intro j u hu
    rcases hget j u hu with ⟨rfl, rfl⟩ | hold
    · exact hleaving
    · exact h.leaving j u hold
  · intro j u hu
    rcases hget j u hu with ⟨rfl, rfl⟩ | hold
    · exact hsuited
    · exact h.suited j u hold

/-- One queue replaced. -/
theorem modify (h : LineInv L P S s) {i : ℕ} {f : Q → Q}
    (hf : ∀ t, s.stations[i]? = some t → ∀ x ∈ L.contents (f t.queue), P i x) :
    LineInv L P S
      { s with stations := s.stations.modify i fun t => { t with queue := f t.queue } } := by
  have hget : ∀ j u, (s.stations.modify i fun t => { t with queue := f t.queue })[j]? = some u →
      ∃ t, s.stations[j]? = some t ∧ u.state = t.state ∧ u.outgoing = t.outgoing ∧
        u.queue = if i = j then f t.queue else t.queue := by
    intro j u hu
    rw [List.getElem?_modify, Option.map_eq_map, Option.map_eq_some_iff] at hu
    obtain ⟨t, ht, rfl⟩ := hu
    by_cases e : i = j
    · exact ⟨t, ht, by simp [e], by simp [e], by simp [e]⟩
    · exact ⟨t, ht, by simp [e], by simp [e], by simp [e]⟩
  refine ⟨?_, ?_, ?_⟩
  · intro j u hu
    obtain ⟨t, ht, -, -, hqueue⟩ := hget j u hu
    rw [hqueue]
    split
    · next e => exact e ▸ hf t (e ▸ ht)
    · exact h.waiting j t ht
  · intro j u hu
    obtain ⟨t, ht, -, hout, -⟩ := hget j u hu
    exact hout ▸ h.leaving j t ht
  · intro j u hu
    obtain ⟨t, ht, hstate, -, -⟩ := hget j u hu
    exact hstate ▸ h.suited j t ht

/-- An item passed on goes from one place to the next. -/
theorem pass (h : LineInv L P S s) (i : ℕ) : LineInv L P S (L.step s (.pass i)) := by
  simp only [Line.step]
  split
  · exact h
  · next t ht =>
      split
      · exact h
      · next x rest hout =>
          have hleaving := h.leaving i t ht
          rw [hout] at hleaving
          have hset : LineInv L P S
              { s with stations := s.stations.set i { t with outgoing := rest } } :=
            h.set (h.waiting i t ht) (fun y hy => hleaving y (List.mem_cons_of_mem x hy))
              (h.suited i t ht)
          refine hset.modify (i := i + 1) (f := fun q => L.push q x) fun u hu y hy => ?_
          rcases L.mem_push hy with hy | rfl
          · exact hset.waiting (i + 1) u hu y hy
          · exact hleaving y List.mem_cons_self

/-- **The step rule.**  Whatever a station does by itself keeps the invariant, and so does the
work on the item taken in this step, if one is. -/
theorem step {a : LineAction ω ι} (h : LineInv L P S s)
    (htick : ∀ i state input, S i state → Keeps P S i (L.tick input s.shared state))
    (hwork : ∀ i t x input, L.Takes s a i t x input → P i x → S i t.state →
      Keeps P S i (L.work input s.shared t.state x)) :
    LineInv L P S (L.step s a) := by
  cases a with
  | tick i input =>
      simp only [Line.step]
      split
      · exact h
      · next t ht =>
          obtain ⟨hstate, hout⟩ := htick i t.state input (h.suited i t ht)
          refine h.set (h.waiting i t ht) ?_ hstate
          intro x hx
          rcases List.mem_append.mp hx with hx | hx
          · exact h.leaving i t ht x hx
          · exact hout x hx
  | take i input =>
      simp only [Line.step]
      split
      · exact h
      · next t ht =>
          split
          · exact h
          · next x queue hnext =>
              have hpop := Line.pop_of_next? hnext
              obtain ⟨hstate, hout⟩ := hwork i t x input ⟨rfl, ht, queue, hnext⟩
                (h.waiting i t ht x (L.mem_pop hpop)) (h.suited i t ht)
              exact h.set (fun y hy => h.waiting i t ht y (L.pop_subset hpop hy)) hout hstate
  | pass i => exact h.pass i
  | close i => exact h.modify fun t ht x hx => h.waiting i t ht x (L.close_subset hx)
  | outside shared => exact ⟨h.waiting, h.leaving, h.suited⟩

/-- **The item taken** suits its station. -/
theorem taken (h : LineInv L P S s) {a : LineAction ω ι} {i : ℕ} {t : Station σ τ Q} {x : τ}
    {input : ι} (ht : L.Takes s a i t x input) : P i x := by
  obtain ⟨-, hstation, queue, hnext⟩ := ht
  exact h.waiting i t hstation x (L.mem_pop (Line.pop_of_next? hnext))

/-- Stations with nothing waiting and nothing to pass on. -/
theorem of_idle
    (hidle : ∀ (i : ℕ) (t : Station σ τ Q), s.stations[i]? = some t →
      L.contents t.queue = [] ∧ t.outgoing = [])
    (hsuited : ∀ (i : ℕ) (t : Station σ τ Q), s.stations[i]? = some t → S i t.state) :
    LineInv L P S s where
  waiting i t ht x hx := by
    rw [(hidle i t ht).1] at hx
    cases hx
  leaving i t ht x hx := by
    rw [(hidle i t ht).2] at hx
    cases hx
  suited := hsuited

end LineInv

end Support
