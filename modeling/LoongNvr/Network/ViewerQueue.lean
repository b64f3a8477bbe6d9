import Mathlib.Data.List.Basic
import Mathlib.Tactic.TypeStar

/-!
# Network — ViewerQueue

What `HttpFlvService` and `WsMediaService` share: the back-pressure of their `PushFrame`, which
makes room in a viewer's queue before it puts a frame at the end, and their lists of viewers.

* `makeRoom_eq_some`: a frame is put in a queue with room as it is, or, if it is a keyframe, in
  the newest half of a full one.
* `getElem?_map_rel`, `getElem?_modify_rel`, `getElem?_concat`: what becomes of one viewer when
  all viewers take a step, when one does, and when one joins.
-/

namespace LoongNvr.Network

variable {α : Type*}

/-- `while (queue.size() > room) queue.pop_front();` -/
def popToRoom (room : ℕ) : List α → List α
  | [] => []
  | front :: queue =>
      if (front :: queue).length > room then popToRoom room queue else front :: queue

/-- The queue a frame is put in, and `none` where the frame is skipped. -/
def makeRoom (limit : ℕ) (isKeyframe : Bool) (queue : List α) : Option (List α) :=
  if queue.length ≥ limit then
    if !isKeyframe then none else some (popToRoom (limit / 2) queue)
  else some queue

/-- The items `popToRoom` takes from the front. -/
def popped (room : ℕ) (queue : List α) : List α := queue.take (queue.length - room)

theorem popToRoom_eq (room : ℕ) (queue : List α) :
    popToRoom room queue = queue.drop (queue.length - room) := by
  induction queue with
  | nil => rw [popToRoom, List.drop_nil]
  | cons front queue ih =>
      rw [popToRoom]
      by_cases e : (front :: queue).length > room
      · have hlen : (front :: queue).length - room = queue.length - room + 1 := by
          simp only [List.length_cons] at e ⊢
          omega
        rw [if_pos e, ih, hlen, List.drop_succ_cons]
      · rw [if_neg e, Nat.sub_eq_zero_of_le (Nat.le_of_not_gt e), List.drop_zero]

theorem popped_append (room : ℕ) (queue : List α) :
    popped room queue ++ popToRoom room queue = queue := by
  rw [popToRoom_eq, popped, List.take_append_drop]

theorem makeRoom_of_lt {limit : ℕ} {isKeyframe : Bool} {queue : List α}
    (h : queue.length < limit) : makeRoom limit isKeyframe queue = some queue :=
  if_neg (Nat.not_le.mpr h)

theorem makeRoom_of_full {limit : ℕ} {queue : List α} (h : limit ≤ queue.length) :
    makeRoom limit false queue = none := if_pos h

/-- The queue is used as it is, or only its newest half is kept, for a keyframe. -/
theorem makeRoom_eq_some {limit : ℕ} {isKeyframe : Bool} {queue room : List α}
    (h : makeRoom limit isKeyframe queue = some room) :
    (queue.length < limit ∧ room = queue) ∨
      (limit ≤ queue.length ∧ isKeyframe = true ∧ room = popToRoom (limit / 2) queue) := by
  by_cases e : queue.length ≥ limit
  · rw [makeRoom, if_pos e] at h
    cases isKeyframe with
    | true => exact .inr ⟨e, rfl, by simpa using h.symm⟩
    | false => cases h
  · rw [makeRoom_of_lt (Nat.lt_of_not_le e)] at h
    exact .inl ⟨Nat.lt_of_not_le e, (Option.some.inj h).symm⟩

/-! ### The viewers of a channel -/

theorem getElem?_map_rel {viewers : List α} {f : α → α} {R : α → α → Prop} (hf : ∀ v, R v (f v))
    {i : ℕ} {v' : α} (h : (viewers.map f)[i]? = some v') : ∃ v, viewers[i]? = some v ∧ R v v' := by
  rw [List.getElem?_map] at h
  obtain ⟨v, hv, rfl⟩ := Option.map_eq_some_iff.mp h
  exact ⟨v, hv, hf v⟩

theorem getElem?_modify_rel {viewers : List α} {f : α → α} {R : α → α → Prop} {i j : ℕ}
    (hrefl : ∀ v, R v v) (hf : j = i → ∀ v, R v (f v)) {v' : α}
    (h : (viewers.modify j f)[i]? = some v') : ∃ v, viewers[i]? = some v ∧ R v v' := by
  rw [List.getElem?_modify] at h
  obtain ⟨v, hv, rfl⟩ := Option.map_eq_some_iff.mp h
  by_cases e : j = i
  · exact ⟨v, hv, by simpa [e] using hf e v⟩
  · exact ⟨v, hv, by simpa [e] using hrefl v⟩

theorem getElem?_concat {viewers : List α} {new v' : α} {i : ℕ}
    (h : (viewers ++ [new])[i]? = some v') :
    viewers[i]? = some v' ∨ viewers[i]? = none ∧ v' = new := by
  rcases Nat.lt_or_ge i viewers.length with hlt | hge
  · rw [List.getElem?_append_left hlt] at h
    exact .inl h
  · rw [List.getElem?_append_right hge] at h
    obtain ⟨hi, hv⟩ := List.getElem?_eq_some_iff.mp h
    exact .inr ⟨List.getElem?_eq_none hge, by simpa using hv.symm⟩

end LoongNvr.Network
