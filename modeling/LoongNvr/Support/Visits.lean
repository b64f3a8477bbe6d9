import Mathlib.Data.List.Nodup
import Mathlib.Logic.Function.Basic
import Mathlib.Tactic.TypeStar

/-!
# Support — Visits

Items with keys, visited one after another.  Something is kept under each key; a visit reads and
writes what is kept under the key of its item, and emits something.

* `foldl_visitStep`: where the keys are distinct, each visit finds what was kept before the loop.
* `foldl_visitStep_sim`: two loops whose visits keep related things emit what reads the same.
* `filter_flatMap_of_tag`: what is emitted under a tag is what the item with that key emits.
-/

namespace Support

variable {κ α β γ ε ζ ρ : Type*} [DecidableEq κ]

/-- What is kept of an item after a visit and what the visit emits, by what was kept. -/
abbrev Visit (α β ε : Type*) := Option β → α → Option β × List ε

/-- The visit to an item in the loop. -/
def visitStep (key : α → κ) (visit : Visit α β ε) (acc : (κ → Option β) × List ε) (a : α) :
    (κ → Option β) × List ε :=
  (Function.update acc.1 (key a) (visit (acc.1 (key a)) a).1,
    acc.2 ++ (visit (acc.1 (key a)) a).2)

/-- What is kept under each key when every item has been visited. -/
def visited (key : α → κ) (visit : Visit α β ε) (as : List α) (kept : κ → Option β) :
    κ → Option β := fun k =>
  match as.find? fun a => key a == k with
  | none => kept k
  | some a => (visit (kept k) a).1

variable {key : α → κ} {visit : Visit α β ε}

/-- **The loop over items with keys of their own.** -/
theorem foldl_visitStep {as : List α} (hnodup : (as.map key).Nodup) (kept : κ → Option β)
    (out : List ε) :
    as.foldl (visitStep key visit) (kept, out) =
      (visited key visit as kept, out ++ as.flatMap fun a => (visit (kept (key a)) a).2) := by
  induction as generalizing kept out with
  | nil => exact congrArg (kept, ·) (List.append_nil out).symm
  | cons a as ih =>
      rw [List.map_cons, List.nodup_cons] at hnodup
      obtain ⟨hnew, hrest⟩ := hnodup
      have hother : ∀ b ∈ as, key b ≠ key a := fun b hb e => hnew (e ▸ List.mem_map_of_mem hb)
      have hflat : (as.flatMap fun b =>
          (visit (Function.update kept (key a) (visit (kept (key a)) a).1 (key b)) b).2) =
            as.flatMap fun b => (visit (kept (key b)) b).2 := by
        refine List.flatMap_congr fun b hb => ?_
        rw [Function.update_of_ne (hother b hb)]
      rw [List.foldl_cons, visitStep, ih hrest, hflat, List.flatMap_cons, List.append_assoc]
      refine congrArg (·, _) (funext fun k => ?_)
      by_cases e : key a = k
      · -- no later item has the key
        subst e
        have hnone : as.find? (fun b => key b == key a) = none :=
          List.find?_eq_none.mpr fun b hb => by simpa using hother b hb
        simp [visited, hnone]
      · simp [visited, e, Ne.symm e]

/-- **Two loops over the same items**, in step. -/
theorem foldl_visitStep_sim {visit' : Visit α γ ζ} {R : Option β → Option γ → Prop} {f : ε → ρ}
    {g : ζ → ρ} {as : List α}
    (hvisit : ∀ a ∈ as, ∀ b c, R b c →
      R (visit b a).1 (visit' c a).1 ∧ (visit b a).2.map f = (visit' c a).2.map g)
    {kept : κ → Option β} {kept' : κ → Option γ} {out : List ε} {out' : List ζ}
    (hkept : ∀ k, R (kept k) (kept' k)) (hout : out.map f = out'.map g) :
    (∀ k, R ((as.foldl (visitStep key visit) (kept, out)).1 k)
        ((as.foldl (visitStep key visit') (kept', out')).1 k)) ∧
      (as.foldl (visitStep key visit) (kept, out)).2.map f =
        (as.foldl (visitStep key visit') (kept', out')).2.map g := by
  induction as generalizing kept kept' out out' with
  | nil => exact ⟨hkept, hout⟩
  | cons a as ih =>
      obtain ⟨hfirst, hrest⟩ := List.forall_mem_cons.mp hvisit
      obtain ⟨hR, hmap⟩ := hfirst _ _ (hkept (key a))
      refine ih hrest (fun k => ?_) ?_
      · by_cases e : k = key a
        · subst e
          rwa [Function.update_self, Function.update_self]
        · rw [Function.update_of_ne e, Function.update_of_ne e]
          exact hkept k
      · rw [List.map_append, List.map_append, hout, hmap]

/-- **What is emitted under a tag**, where each item emits under its own key. -/
theorem filter_flatMap_of_tag {tag : ε → κ} {emit : α → List ε} (k : κ) :
    ∀ {as : List α}, (as.map key).Nodup → (∀ a ∈ as, ∀ o ∈ emit a, tag o = key a) →
      (as.flatMap emit).filter (fun o => tag o = k) =
        ((as.find? fun a => key a == k).map emit).getD [] := by
  intro as
  induction as with
  | nil => exact fun _ _ => rfl
  | cons a as ih =>
      intro hnodup htag
      rw [List.map_cons, List.nodup_cons] at hnodup
      obtain ⟨hfirst, hrest⟩ := List.forall_mem_cons.mp htag
      rw [List.flatMap_cons, List.filter_append, ih hnodup.2 hrest]
      by_cases e : key a = k
      · -- no later item has the key
        have hnone : (as.find? fun b => key b == k) = none :=
          List.find?_eq_none.mpr fun b hb hk => hnodup.1
            (List.mem_map.mpr ⟨b, hb, by simpa [e] using hk⟩)
        have hall : (emit a).filter (fun o => tag o = k) = emit a :=
          List.filter_eq_self.mpr fun o ho => by simp [hfirst o ho, e]
        rw [hall, hnone, List.find?_cons_of_pos (by simp [e])]
        simp
      · have hnone : (emit a).filter (fun o => tag o = k) = [] :=
          List.filter_eq_nil_iff.mpr fun o ho => by simp [hfirst o ho, e]
        rw [hnone, List.find?_cons_of_neg (by simp [e]), List.nil_append]

end Support
