import LoongNvr.Support.Program
import Mathlib.Computability.StateTransition

/-!
# Core — EventBus

`EventBus` and a thread that publishes.  `Publish` holds `mutex_`, which is not recursive, while it
calls the handlers one after the other, and a handler may publish.

* `EventBus.step`: one step of the thread.  It takes none when it has returned, and none when it
  waits for a mutex that it holds itself.
* `reaches_handler`, `stuck_handler`: a handler that publishes nothing returns, any other is stuck.
* `Acyclic`: no event leads to itself through the handlers.
* `delivers_iff`: a call returns, having called every handler once and in order, exactly if none of
  the handlers publishes.
-/

namespace LoongNvr.Core
open Support StateTransition

variable {σ δ : Type}

/-- What a handler does: something of its own to the state of the program, or a `Publish`. -/
inductive HandlerAct (σ δ : Type)
  | modify (f : σ → σ)
  | publish (eventType : String) (data : δ)

/-- A handler at work; it returns or throws. -/
abbrev HandlerRun (σ δ : Type) := Program σ (HandlerAct σ δ) (Except String Unit)

structure Subscription (σ δ : Type) where
  id : ℕ
  handler : δ → HandlerRun σ δ

/-- `subscribers_` in the order it is gone through, an entry for each event type, and `next_id_`. -/
structure EventBus (σ δ : Type) where
  subscribers : List (String × List (Subscription σ δ)) := []
  nextId : ℕ := 1

namespace EventBus

/-! ### Subscriptions -/

/-- `subscribers_[event_type].push_back(sub)` -/
def pushBack (eventType : String) (sub : Subscription σ δ) :
    List (String × List (Subscription σ δ)) → List (String × List (Subscription σ δ))
  | [] => [(eventType, [sub])]
  | (key, subs) :: entries =>
      if key = eventType then (key, subs ++ [sub]) :: entries
      else (key, subs) :: pushBack eventType sub entries

def subscribe (eventType : String) (handler : δ → HandlerRun σ δ) (bus : EventBus σ δ) :
    EventBus σ δ × ℕ :=
  ({ subscribers := pushBack eventType ⟨bus.nextId, handler⟩ bus.subscribers
     nextId := bus.nextId + 1 }, bus.nextId)

/-- The first event type with a subscription of that id loses it. -/
def removeFirst (id : ℕ) :
    List (String × List (Subscription σ δ)) → List (String × List (Subscription σ δ))
  | [] => []
  | (key, subs) :: entries =>
      if subs.any (·.id = id) then (key, subs.filter (·.id ≠ id)) :: entries
      else (key, subs) :: removeFirst id entries

def unsubscribe (id : ℕ) (bus : EventBus σ δ) : EventBus σ δ :=
  { bus with subscribers := removeFirst id bus.subscribers }

/-- `subscribers_.find(event_type)`, none if there is no entry. -/
def subscribersOf (eventType : String) (bus : EventBus σ δ) : List (Subscription σ δ) :=
  (bus.subscribers.lookup eventType).getD []

/-! ### A thread -/

/-- A call that has not returned: the loop of `Publish` with the subscriptions to come, or a handler
with what it has still to do. -/
inductive Frame (σ δ : Type)
  | loop (eventType : String) (subs : List (Subscription σ δ)) (data : δ)
  | handler (rest : HandlerRun σ δ)

/-- A thread, whether it holds `mutex_`, the state of the program, and the handlers called so far,
with the event each was called for. -/
structure Thread (σ δ : Type) where
  stack : List (Frame σ δ) := []
  held : Bool := false
  world : σ
  called : List (String × ℕ) := []

/-- `Publish` up to its loop; `none` if the thread holds the mutex it waits for. -/
def publish (bus : EventBus σ δ) (eventType : String) (data : δ) (t : Thread σ δ) :
    Option (Thread σ δ) :=
  if t.held then none
  else some { t with
    held := true
    stack := .loop eventType (bus.subscribersOf eventType) data :: t.stack }

def step (bus : EventBus σ δ) (t : Thread σ δ) : Option (Thread σ δ) :=
  match t.stack with
  | [] => none
  | .loop _ [] _ :: calls => some { t with stack := calls, held := false }
  | .loop eventType (sub :: subs) data :: calls =>
      some { t with
        stack := .handler (sub.handler data) :: .loop eventType subs data :: calls
        called := t.called ++ [(eventType, sub.id)] }
  -- what a handler throws is caught by the loop
  | .handler (.done _) :: calls => some { t with stack := calls }
  | .handler (.step (.modify f) next) :: calls =>
      some { t with stack := .handler (next t.world) :: calls, world := f t.world }
  | .handler (.step (.publish eventType data) next) :: calls =>
      publish bus eventType data { t with stack := .handler (next t.world) :: calls }

/-- A call of `Publish` by a thread that does not hold the mutex returns, and it has called every
handler of the event once, in the order they subscribed. -/
def Delivers (bus : EventBus σ δ) (eventType : String) (data : δ) (world : σ) : Prop :=
  ∃ start ∈ publish bus eventType data { world := world }, ∃ last ∈ eval (step bus) start,
    last.stack = [] ∧ last.held = false ∧
      (last.called.filter (·.1 = eventType)).map (·.2) =
        (bus.subscribersOf eventType).map (·.id)

/-! ### Handlers that publish -/

/-- Some act of the handler, from this state of the program, is a `Publish`. -/
def Publishes : HandlerRun σ δ → σ → Prop
  | .done _, _ => False
  | .step (.modify f) next, world => Publishes (next world) (f world)
  | .step (.publish _ _) _, _ => True

/-- What the acts of a handler do to the state of the program. -/
def exec (world : σ) : HandlerAct σ δ → σ
  | .modify f => f world
  | .publish _ _ => world

/-- None of the handlers, called one after the other, publishes. -/
def NonePublishes (data : δ) : List (Subscription σ δ) → σ → Prop
  | [], _ => True
  | sub :: subs, world =>
      ¬ Publishes (sub.handler data) world ∧
        NonePublishes data subs ((sub.handler data).run exec world).2

variable {bus : EventBus σ δ}

/-- A handler that publishes nothing returns. -/
theorem reaches_handler {p : HandlerRun σ δ} {t : Thread σ δ} {calls : List (Frame σ δ)}
    (hstack : t.stack = .handler p :: calls) (hsilent : ¬ Publishes p t.world) :
    Reaches (step bus) t { t with stack := calls, world := (p.run exec t.world).2 } := by
  induction p generalizing t with
  | done r =>
      refine .single ?_
      simp [step, hstack]
  | step a next ih =>
      cases a with
      | publish eventType data => exact absurd trivial hsilent
      | modify f =>
          let t' : Thread σ δ :=
            { t with stack := .handler (next t.world) :: calls, world := f t.world }
          have hstep : t' ∈ step bus t := by simp [step, hstack, t']
          exact .head hstep (ih t.world (t := t') rfl hsilent)

/-- A handler that publishes gets stuck: the thread holds the mutex. -/
theorem stuck_handler {p : HandlerRun σ δ} {t : Thread σ δ} {calls : List (Frame σ δ)}
    (hstack : t.stack = .handler p :: calls) (hheld : t.held = true)
    (hpublishes : Publishes p t.world) :
    ∃ last ∈ eval (step bus) t, last.stack ≠ [] := by
  induction p generalizing t with
  | done r => exact absurd hpublishes id
  | step a next ih =>
      cases a with
      | publish eventType data =>
          refine ⟨t, mem_eval.mpr ⟨.refl, ?_⟩, by simp [hstack]⟩
          simp [step, hstack, publish, hheld]
      | modify f =>
          let t' : Thread σ δ :=
            { t with stack := .handler (next t.world) :: calls, world := f t.world }
          have hstep : t' ∈ step bus t := by simp [step, hstack, t']
          obtain ⟨last, hlast, hne⟩ := ih t.world (t := t') rfl hheld hpublishes
          rw [← reaches_eval (.single hstep)] at hlast
          exact ⟨last, hlast, hne⟩

/-- One turn of the loop of `Publish`. -/
theorem step_loop {t : Thread σ δ} {eventType : String} {sub : Subscription σ δ}
    {subs : List (Subscription σ δ)} {data : δ} {calls : List (Frame σ δ)}
    (hstack : t.stack = .loop eventType (sub :: subs) data :: calls) :
    step bus t = some { t with
      stack := .handler (sub.handler data) :: .loop eventType subs data :: calls
      called := t.called ++ [(eventType, sub.id)] } := by
  rw [step, hstack]

/-- Handlers that publish nothing are called one by one, and the call returns. -/
theorem reaches_loop {subs : List (Subscription σ δ)} {t : Thread σ δ} {eventType : String}
    {data : δ} {calls : List (Frame σ δ)} (hstack : t.stack = .loop eventType subs data :: calls)
    (hsilent : NonePublishes data subs t.world) :
    ∃ world, Reaches (step bus) t
      { stack := calls, held := false, world := world
        called := t.called ++ subs.map fun sub => (eventType, sub.id) } := by
  induction subs generalizing t with
  | nil =>
      refine ⟨t.world, .single ?_⟩
      simp [step, hstack]
  | cons sub subs ih =>
      obtain ⟨hfirst, hrest⟩ := hsilent
      let entered : Thread σ δ := { t with
        stack := .handler (sub.handler data) :: .loop eventType subs data :: calls
        called := t.called ++ [(eventType, sub.id)] }
      have hreturned : Reaches (step bus) entered _ := reaches_handler rfl hfirst
      let returned : Thread σ δ := { entered with
        stack := .loop eventType subs data :: calls
        world := ((sub.handler data).run exec entered.world).2 }
      obtain ⟨world, hlast⟩ := ih (t := returned) rfl hrest
      refine ⟨world, .head (step_loop hstack) (hreturned.trans ?_)⟩
      rw [List.map_cons, List.append_cons]
      exact hlast

/-- With a handler that publishes among them the call never returns. -/
theorem stuck_loop {subs : List (Subscription σ δ)} {t : Thread σ δ} {eventType : String}
    {data : δ} {calls : List (Frame σ δ)} (hstack : t.stack = .loop eventType subs data :: calls)
    (hheld : t.held = true) (hpublishes : ¬ NonePublishes data subs t.world) :
    ∃ last ∈ eval (step bus) t, last.stack ≠ [] := by
  induction subs generalizing t with
  | nil => exact absurd trivial hpublishes
  | cons sub subs ih =>
      let entered : Thread σ δ := { t with
        stack := .handler (sub.handler data) :: .loop eventType subs data :: calls
        called := t.called ++ [(eventType, sub.id)] }
      have henter : Reaches (step bus) t entered := .single (step_loop hstack)
      by_cases hfirst : Publishes (sub.handler data) t.world
      · obtain ⟨last, hlast, hne⟩ : ∃ last ∈ eval (step bus) entered, last.stack ≠ [] :=
          stuck_handler rfl hheld hfirst
        exact ⟨last, reaches_eval henter ▸ hlast, hne⟩
      · have hreturned : Reaches (step bus) entered _ := reaches_handler rfl hfirst
        let returned : Thread σ δ := { entered with
          stack := .loop eventType subs data :: calls
          world := ((sub.handler data).run exec entered.world).2 }
        have hrest : ¬ NonePublishes data subs returned.world := fun hrest =>
          hpublishes ⟨hfirst, hrest⟩
        obtain ⟨last, hlast, hne⟩ := ih (t := returned) rfl hheld hrest
        exact ⟨last, reaches_eval (henter.trans hreturned) ▸ hlast, hne⟩

/-- A thread that has entered `Publish`. -/
def enter (bus : EventBus σ δ) (eventType : String) (data : δ) (world : σ) : Thread σ δ where
  world := world
  held := true
  stack := [.loop eventType (bus.subscribersOf eventType) data]

theorem not_delivers {eventType : String} {data : δ} {world : σ}
    (h : ¬ NonePublishes data (bus.subscribersOf eventType) world) :
    ¬ Delivers bus eventType data world := by
  rintro ⟨start, hstart, last, hlast, hreturned, -⟩
  obtain rfl : enter bus eventType data world = start := Option.some.inj hstart
  obtain ⟨stuck, hstuck, hne⟩ :=
    stuck_loop (t := enter bus eventType data world) rfl rfl h
  rw [Part.mem_unique hlast hstuck] at hreturned
  exact hne hreturned

theorem delivers_of_none {eventType : String} {data : δ} {world : σ}
    (h : NonePublishes data (bus.subscribersOf eventType) world) :
    Delivers bus eventType data world := by
  obtain ⟨last, hlast⟩ := reaches_loop (t := enter bus eventType data world) rfl h
  refine ⟨enter bus eventType data world, rfl, _, mem_eval.mpr ⟨hlast, rfl⟩, rfl, rfl, ?_⟩
  rw [enter, List.nil_append, List.filter_eq_self.mpr (by simp), List.map_map]
  rfl

/-- **A call of `Publish` delivers** exactly if none of the handlers it calls publishes. -/
theorem delivers_iff (bus : EventBus σ δ) (eventType : String) (data : δ) (world : σ) :
    Delivers bus eventType data world ↔
      NonePublishes data (bus.subscribersOf eventType) world := by
  refine ⟨fun h => ?_, delivers_of_none⟩
  by_contra hpublishes
  exact not_delivers hpublishes h

/-! ### Who publishes what -/

/-- A handler of one event can publish another. -/
def MayPublish (bus : EventBus σ δ) (eventType other : String) : Prop :=
  ∃ sub ∈ bus.subscribersOf eventType, ∃ data,
    ¬ (sub.handler data).All fun act => ∀ data', act ≠ .publish other data'

/-- No event is published, in the end, by its own handlers. -/
def Acyclic (bus : EventBus σ δ) : Prop :=
  ∀ eventType, ¬ Relation.TransGen (MayPublish bus) eventType eventType

end EventBus

end LoongNvr.Core
