import Mathlib.Algebra.Order.BigOperators.Group.List
import Mathlib.Data.List.AList
import Mathlib.Data.List.Induction
import Mathlib.Data.List.Nodup

/-!
# Support — Groups

The elements of a list by a key, and what is summed over each group.

* `groupSum`: the sum over the elements with a key.
* `tally`: a map filled along a list, with what is at an element's key changed for that element.
* `sum_groupSum`: the sums over the groups make up the sum over the list, whatever the key.
* `groupSum_coarser`: a group by a coarser key is made of groups by the finer one.
* `lookup_tally`: what is at a key comes from the elements with that key, in their order.
-/

namespace Support

variable {α κ κ' β M : Type*} [DecidableEq κ] [DecidableEq κ'] [AddCommMonoid M]

/-- The sum over the elements with this key. -/
def groupSum (key : α → κ) (f : α → M) (l : List α) (k : κ) : M :=
  ((l.filter fun a => key a = k).map f).sum

variable {key : α → κ} {f : α → M} {l : List α}

theorem groupSum_cons (a : α) (l : List α) (k : κ) :
    groupSum key f (a :: l) k = (if key a = k then f a else 0) + groupSum key f l k := by
  unfold groupSum
  by_cases hk : key a = k
  · simp [hk]
  · simp [hk]

/-- Among different keys an element counts once. -/
theorem sum_ite_key {k : κ} (c : M) {ks : List κ} (hnodup : ks.Nodup) (hk : k ∈ ks) :
    (ks.map fun k' => if k = k' then c else 0).sum = c := by
  induction ks with
  | nil => cases hk
  | cons k' ks ih =>
      obtain ⟨hnew, hrest⟩ := List.nodup_cons.mp hnodup
      rw [List.map_cons, List.sum_cons]
      by_cases e : k = k'
      · subst e
        have hzero : ∀ x ∈ ks.map fun k' => if k = k' then c else 0, x = 0 := by
          intro x hx
          obtain ⟨k', hk', rfl⟩ := List.mem_map.mp hx
          have hne : k ≠ k' := by
            rintro rfl
            exact hnew hk'
          exact if_neg hne
        rw [if_pos rfl, List.sum_eq_zero hzero, add_zero]
      · rw [if_neg e, zero_add]
        exact ih hrest ((List.mem_cons.mp hk).resolve_left e)

/-- **The groups make up the list.** -/
theorem sum_groupSum {ks : List κ} (hnodup : ks.Nodup) (hks : ∀ a ∈ l, key a ∈ ks) :
    (ks.map (groupSum key f l)).sum = (l.map f).sum := by
  induction l with
  | nil =>
      have hzero : ∀ x ∈ ks.map (groupSum key f []), x = 0 := by
        intro x hx
        obtain ⟨k, -, rfl⟩ := List.mem_map.mp hx
        rfl
      rw [List.sum_eq_zero hzero, List.map_nil, List.sum_nil]
  | cons a l ih =>
      obtain ⟨ha, hl⟩ := List.forall_mem_cons.mp hks
      have hcons : groupSum key f (a :: l) =
          fun k => (if key a = k then f a else 0) + groupSum key f l k :=
        funext (groupSum_cons a l)
      rw [hcons, List.sum_map_add, sum_ite_key (f a) hnodup ha, ih hl, List.map_cons,
        List.sum_cons]

/-- **A group by a coarser key** is made of the groups whose keys fall into it. -/
theorem groupSum_coarser {ks : List κ} (hnodup : ks.Nodup) (hks : ∀ a ∈ l, key a ∈ ks)
    {coarse : α → κ'} (g : κ → κ') (hcoarse : ∀ a, coarse a = g (key a)) (k' : κ') :
    groupSum coarse f l k' = ((ks.filter fun k => g k = k').map (groupSum key f l)).sum := by
  have hgroup : ∀ k ∈ ks.filter fun k => g k = k',
      groupSum key f (l.filter fun a => coarse a = k') k = groupSum key f l k := by
    intro k hk
    have hgk : g k = k' := by simpa using (List.mem_filter.mp hk).2
    unfold groupSum
    rw [List.filter_filter]
    refine congrArg (fun l => (l.map f).sum) (List.filter_congr fun a _ => ?_)
    by_cases hka : key a = k
    · simp [hka, hcoarse, hgk]
    · simp [hka]
  rw [← List.map_congr_left hgroup, sum_groupSum (hnodup.filter _), groupSum]
  intro a ha
  obtain ⟨hmem, hcoarseKey⟩ := List.mem_filter.mp ha
  exact List.mem_filter.mpr ⟨hks a hmem, by simpa [hcoarse] using hcoarseKey⟩

theorem groupSum_eq_zero (key : α → κ) {k : κ} (h : ∀ a ∈ l, key a ≠ k) :
    groupSum key f l k = 0 := by
  have hnone : l.filter (fun a => key a = k) = [] := by
    simpa [List.filter_eq_nil_iff] using h
  rw [groupSum, hnone, List.map_nil, List.sum_nil]

section Order

variable [PartialOrder M] [IsOrderedAddMonoid M]

theorem groupSum_nonneg (h : ∀ a ∈ l, 0 ≤ f a) (k : κ) : 0 ≤ groupSum key f l k := by
  refine List.sum_nonneg fun x hx => ?_
  obtain ⟨a, ha, rfl⟩ := List.mem_map.mp hx
  exact h a (List.mem_filter.mp ha).1

theorem groupSum_le_sum (key : α → κ) (h : ∀ a ∈ l, 0 ≤ f a) (k : κ) :
    groupSum key f l k ≤ (l.map f).sum := by
  induction l with
  | nil => exact le_rfl
  | cons a l ih =>
      obtain ⟨ha, hl⟩ := List.forall_mem_cons.mp h
      rw [groupSum_cons, List.map_cons, List.sum_cons]
      refine add_le_add ?_ (ih hl)
      split
      · exact le_rfl
      · exact ha

end Order

/-! ### A map filled along a list -/

/-- The value at the key of each element is changed for it, from `new` where there is none yet. -/
def tally (key : α → κ) (change : α → β → β) (new : β) (l : List α) : AList fun _ : κ => β :=
  l.foldl (fun m a => m.insert (key a) (change a ((m.lookup (key a)).getD new))) ∅

variable {change : α → β → β} {new : β}

theorem lookup_tally (k : κ) :
    (tally key change new l).lookup k =
      if l.any (key · = k) then
        some ((l.filter fun a => key a = k).foldl (fun b a => change a b) new)
      else none := by
  induction l using List.reverseRecOn with
  | nil => rfl
  | append_singleton l a ih =>
      simp only [tally, List.foldl_append, List.foldl_cons, List.foldl_nil] at ih ⊢
      by_cases hk : key a = k
      · subst hk
        rw [AList.lookup_insert, ih]
        by_cases hany : l.any (key · = key a) = true
        · simp [hany, List.filter_append]
        · have hnone : l.filter (fun b => key b = key a) = [] := by
            simpa [List.filter_eq_nil_iff] using hany
          simp [hany, List.filter_append, hnone]
      · rw [AList.lookup_insert_ne (Ne.symm hk), ih]
        simp [hk, List.filter_append]

theorem mem_tally (change : α → β → β) (new : β) {k : κ} :
    k ∈ tally key change new l ↔ ∃ a ∈ l, key a = k := by
  rw [← AList.lookup_isSome, lookup_tally]
  by_cases hany : l.any (key · = k) = true
  · rw [if_pos hany]
    simpa using hany
  · rw [if_neg hany]
    simpa using hany

/-- What is at a key of the map. -/
theorem entry_tally {e : Σ _ : κ, β} (he : e ∈ (tally key change new l).entries) :
    (∃ a ∈ l, key a = e.1) ∧
      e.2 = (l.filter fun a => key a = e.1).foldl (fun b a => change a b) new := by
  have hlookup : (tally key change new l).lookup e.1 = some e.2 := AList.mem_lookup_iff.mpr he
  have hkey : ∃ a ∈ l, key a = e.1 := by
    rw [← mem_tally change new, ← AList.lookup_isSome, hlookup]
    rfl
  refine ⟨hkey, ?_⟩
  rw [lookup_tally, if_pos (by simpa using hkey)] at hlookup
  exact (Option.some.inj hlookup).symm

end Support
