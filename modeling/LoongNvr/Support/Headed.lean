import Mathlib.Data.List.Induction
import Mathlib.Tactic.TypeStar

/-!
# Support — Headed

Streams of headers and of bodies that are read under a header.

* `Headers.Current`: the header last seen before a body is the one the body was made under.
* `current_concat`: a body is added under the header in effect.
* `Current.remove`: a part that is `Dispensable` can be taken out of the middle.
-/

namespace Support

/-- What an item of a stream is: `carries` a header, `needs` one, or neither. -/
structure Headers (ι η : Type*) where
  carries : ι → Option η
  needs : ι → Option η

namespace Headers

variable {ι η : Type*} (H : Headers ι η)

/-- The header in effect after the items. -/
def latest (items : List ι) : Option η := (items.filterMap H.carries).getLast?

/-- Before every item that needs a header, that header is in effect. -/
def Current (items : List ι) : Prop :=
  ∀ before x after, items = before ++ x :: after → ∀ h, H.needs x = some h →
    H.latest before = some h

variable {H}

theorem latest_concat_header {items : List ι} {x : ι} {h : η} (hx : H.carries x = some h) :
    H.latest (items ++ [x]) = some h := by
  simp [latest, List.filterMap_append, hx]

theorem latest_append (before after : List ι) :
    H.latest (before ++ after) = (H.latest after).or (H.latest before) := by
  rw [latest, List.filterMap_append, List.getLast?_append]
  rfl

theorem latest_append_of_none {before after : List ι} (h : ∀ x ∈ after, H.carries x = none) :
    H.latest (before ++ after) = H.latest before := by
  have hnil : after.filterMap H.carries = [] := List.filterMap_eq_nil_iff.mpr h
  rw [latest, List.filterMap_append, hnil, List.append_nil, latest]

/-- Items that need no header can come at any point. -/
theorem current_of_needs_none {items : List ι} (h : ∀ x ∈ items, H.needs x = none) :
    H.Current items := by
  rintro before x after rfl n hn
  rw [h x (List.mem_append_right _ List.mem_cons_self)] at hn
  cases hn

theorem current_nil : H.Current [] := current_of_needs_none fun _ h => absurd h List.not_mem_nil

theorem Current.left {items more : List ι} (h : H.Current (items ++ more)) : H.Current items := by
  intro before x after e
  refine h before x (after ++ more) ?_
  rw [e, List.append_assoc, List.cons_append]

theorem Current.latest_take {items : List ι} (h : H.Current items) {n : ℕ} {x : ι} {m : η}
    (hx : items[n]? = some x) (hm : H.needs x = some m) : H.latest (items.take n) = some m := by
  obtain ⟨hn, rfl⟩ := List.getElem?_eq_some_iff.mp hx
  refine h _ items[n] (items.drop (n + 1)) ?_ m hm
  rw [← List.drop_eq_getElem_cons hn, List.take_append_drop]

theorem current_concat {items : List ι} {x : ι} :
    H.Current (items ++ [x]) ↔
      H.Current items ∧ ∀ h, H.needs x = some h → H.latest items = some h := by
  refine ⟨fun h => ⟨h.left, h items x [] rfl⟩, ?_⟩
  rintro ⟨hitems, hx⟩ before y after e
  obtain rfl | ⟨front, z, rfl⟩ := after.eq_nil_or_concat
  · obtain ⟨rfl, rfl⟩ : items = before ∧ x = y := by simpa using e
    exact hx
  · refine hitems before y front ?_
    rw [List.concat_eq_append, ← List.cons_append, ← List.append_assoc] at e
    exact (List.append_inj' e rfl).1

/-! ### Taking out a part -/

/-- Without `d` between `a` and `k`, the items of `k` have the header they had: `d` leaves the one
in effect before it, or `k` starts with a header of its own. -/
def Dispensable (H : Headers ι η) (a d k : List ι) : Prop :=
  H.latest (a ++ d) = H.latest a ∨ ∃ x ∈ k.head?, H.carries x ≠ none ∧ H.needs x = none

theorem dispensable_of_none {a d : List ι} (h : ∀ x ∈ d, H.carries x = none) (k : List ι) :
    H.Dispensable a d k := .inl (latest_append_of_none h)

theorem Dispensable.latest_eq {a d k : List ι} (h : H.Dispensable a d k) :
    H.latest (a ++ k) = H.latest (a ++ (d ++ k)) := by
  rw [← List.append_assoc, latest_append a k, latest_append (a ++ d) k]
  rcases h with hsame | ⟨x, hx, hcarries, -⟩
  · rw [hsame]
  · obtain ⟨k, rfl⟩ := List.head?_eq_some_iff.mp hx
    obtain ⟨m, hm⟩ := Option.ne_none_iff_exists'.mp hcarries
    have hsome : H.latest (x :: k) ≠ none := by
      simp [latest, hm]
    obtain ⟨n, hn⟩ := Option.ne_none_iff_exists'.mp hsome
    rw [hn, Option.some_or, Option.some_or]

theorem Current.remove {a d k : List ι} (h : H.Current (a ++ (d ++ k)))
    (hd : H.Dispensable a d k) : H.Current (a ++ k) := by
  induction k using List.reverseRecOn with
  | nil => rw [List.append_nil]; exact h.left
  | append_singleton k x ih =>
      rw [← List.append_assoc d, ← List.append_assoc a] at h
      obtain ⟨hfront, hx⟩ := current_concat.mp h
      rw [← List.append_assoc]
      cases k with
      | nil =>
          refine current_concat.mpr ⟨by simpa using hfront.left, fun n hn => ?_⟩
          rcases hd with hsame | ⟨y, hy, -, hneeds⟩
          · rw [List.append_nil, ← hsame, ← hx n hn, List.append_nil]
          · obtain rfl : x = y := Option.some.inj hy
            exact absurd hn (by simp [hneeds])
      | cons y k =>
          have hcut : H.Dispensable a d (y :: k) := hd
          exact current_concat.mpr ⟨ih hfront hcut, fun n hn => hcut.latest_eq.trans (hx n hn)⟩

/-- **Exactly such a part can be taken out**, when what follows it starts with a header or with an
item that needs one. -/
theorem dispensable_iff {a d k : List ι} {x : ι} (h : H.Current (a ++ (d ++ x :: k)))
    (hx : H.needs x = none → H.carries x ≠ none) :
    H.Dispensable a d (x :: k) ↔ H.Current (a ++ x :: k) := by
  refine ⟨h.remove, fun hcut => ?_⟩
  cases hneeds : H.needs x with
  | none => exact .inr ⟨x, rfl, hx hneeds, hneeds⟩
  | some m =>
      rw [← List.append_assoc] at h
      exact .inl ((h _ x k rfl m hneeds).trans (hcut a x k rfl m hneeds).symm)

end Headers

end Support
