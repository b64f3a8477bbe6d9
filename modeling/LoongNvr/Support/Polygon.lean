import Mathlib.Algebra.Group.Nat.Even
import Mathlib.Algebra.Order.Field.Basic
import Mathlib.Data.List.MinMax
import Mathlib.Data.List.Rotate
import Mathlib.Tactic.FieldSimp
import Mathlib.Tactic.Linarith
import Mathlib.Tactic.LinearCombination
import Mathlib.Tactic.Ring

/-!
# Support — Polygon

The closed path through the elements of a list, and how many of its edges have some property.

* `edges`: each element with the next, the last with the first.
* `edges_rotate`, `mem_edges_reverse`: the edges of the path from another start, or backwards.
* `countP_edges_reverse`: a property that does not depend on the direction has as many.
* `countP_edges_cut`: cutting the path in two adds the cut's edge to either part.
* `countP_edges_in`: as many edges lead into a part of the elements as lead out of it.
-/

namespace Support

variable {α : Type*} {a b : α} {l : List α}

/-- The edges of the closed path. -/
def edges (l : List α) : List (α × α) := l.zip (l.rotate 1)

/-- The edges of an open path. -/
def legs (l : List α) : List (α × α) := l.zip l.tail

theorem legs_cons_cons (a b : α) (l : List α) : legs (a :: b :: l) = (a, b) :: legs (b :: l) :=
  rfl

theorem edges_cons (a : α) (l : List α) : edges (a :: l) = legs (a :: (l ++ [a])) := by
  have hlength : (a :: l).length = (l ++ [a]).length := by simp
  have hlegs : legs (a :: (l ++ [a])) = ((a :: l) ++ [a]).zip ((l ++ [a]) ++ []) := by
    rw [List.append_nil]
    rfl
  rw [hlegs, List.zip_append hlength, List.zip_nil_right, List.append_nil, edges,
    List.rotate_cons_succ, List.rotate_zero]

/-- A path is put together from two. -/
theorem legs_append (l : List α) (b : α) (l' : List α) :
    legs (l ++ b :: l') = legs (l ++ [b]) ++ legs (b :: l') := by
  induction l with
  | nil => rfl
  | cons a l ih =>
      cases l with
      | nil => rfl
      | cons c l =>
          rw [List.cons_append, List.cons_append, List.cons_append, List.cons_append,
            legs_cons_cons, legs_cons_cons, List.cons_append]
          exact congrArg _ ih

theorem legs_reverse (l : List α) : legs l.reverse = ((legs l).map Prod.swap).reverse := by
  induction l with
  | nil => rfl
  | cons a l ih =>
      cases l with
      | nil => rfl
      | cons b l =>
          rw [List.reverse_cons, List.reverse_cons, List.append_assoc, List.singleton_append,
            legs_append, ← List.reverse_cons, ih, legs_cons_cons a b l, List.map_cons,
            List.reverse_cons]
          rfl

/-- **Another start.** -/
theorem edges_rotate (l : List α) (n : ℕ) : edges (l.rotate n) = (edges l).rotate n := by
  rw [edges, edges, List.zip_eq_zipWith, List.zip_eq_zipWith,
    List.zipWith_rotate_distrib _ _ _ _ (List.length_rotate l 1).symm, List.rotate_rotate,
    List.rotate_rotate, Nat.add_comm]

theorem edges_rotate_perm (l : List α) (n : ℕ) : (edges (l.rotate n)).Perm (edges l) := by
  rw [edges_rotate]
  exact List.rotate_perm _ _

theorem edges_append_comm (l l' : List α) : (edges (l ++ l')).Perm (edges (l' ++ l)) := by
  rw [← List.rotate_append_length_eq l l']
  exact (edges_rotate_perm _ _).symm

/-- **Backwards** every edge is the other way round. -/
theorem edges_reverse_perm (l : List α) :
    (edges l.reverse).Perm ((edges l).map Prod.swap) := by
  cases l with
  | nil => exact .refl _
  | cons a l =>
      have hclosed : a :: (l.reverse ++ [a]) = (a :: (l ++ [a])).reverse := by simp
      rw [List.reverse_cons]
      refine (edges_append_comm _ _).trans ?_
      rw [List.singleton_append, edges_cons, edges_cons, hclosed, legs_reverse]
      exact List.reverse_perm _

theorem mem_edges_reverse : (a, b) ∈ edges l.reverse ↔ (b, a) ∈ edges l := by
  rw [(edges_reverse_perm l).mem_iff, List.mem_map]
  constructor
  · rintro ⟨⟨c, d⟩, he, hswap⟩
    obtain ⟨rfl, rfl⟩ := Prod.mk.inj hswap
    exact he
  · intro he
    exact ⟨(b, a), he, rfl⟩

section Symmetric
variable {p : α × α → Bool} (hp : ∀ e, p e.swap = p e)
include hp

theorem countP_map_swap (es : List (α × α)) : (es.map Prod.swap).countP p = es.countP p := by
  rw [List.countP_map]
  exact List.countP_congr fun e _ => by rw [Function.comp_apply, hp]

theorem countP_edges_reverse (l : List α) : (edges l.reverse).countP p = (edges l).countP p := by
  rw [(edges_reverse_perm l).countP_eq, countP_map_swap hp]

/-- **A cut** between two elements is an edge of both parts. -/
theorem countP_edges_cut (first between last : List α) (a b : α) :
    (edges (a :: (between ++ [b]))).countP p + (edges (b :: (last ++ first ++ [a]))).countP p =
      (edges (first ++ a :: (between ++ b :: last))).countP p + 2 * if p (a, b) then 1 else 0 := by
  have hwhole : (edges (first ++ a :: (between ++ b :: last))).countP p =
      (legs (a :: (between ++ [b]))).countP p +
        (legs (b :: (last ++ first ++ [a]))).countP p := by
    have hsplit : a :: (between ++ b :: last) ++ first ++ [a] =
        (a :: between) ++ b :: (last ++ first ++ [a]) := by simp
    rw [(edges_append_comm _ _).countP_eq, List.cons_append, edges_cons, ← List.cons_append,
      ← List.cons_append, hsplit, legs_append, List.countP_append, List.cons_append]
  have hpart : ∀ (c d : α) (l : List α), (edges (c :: (l ++ [d]))).countP p =
      (legs (c :: (l ++ [d]))).countP p + if p (d, c) then 1 else 0 := by
    intro c d l
    have hsplit : c :: (l ++ [d] ++ [c]) = (c :: l) ++ d :: [c] := by simp
    rw [edges_cons, hsplit, legs_append, List.countP_append, List.cons_append]
    show _ + [(d, c)].countP p = _
    rw [List.countP_singleton]
  rw [hwhole, hpart, hpart, ← hp (b, a), Prod.swap_prod_mk]
  omega

end Symmetric

/-! ### Parts of the elements -/

theorem map_fst_edges (l : List α) : (edges l).map Prod.fst = l :=
  List.map_fst_zip (List.length_rotate l 1).ge

theorem map_snd_edges (l : List α) : (edges l).map Prod.snd = l.rotate 1 :=
  List.map_snd_zip (List.length_rotate l 1).le

theorem fst_mem_of_edges {e : α × α} (he : e ∈ edges l) : e.1 ∈ l := by
  have := List.mem_map_of_mem (f := Prod.fst) he
  rwa [map_fst_edges] at this

theorem snd_mem_of_edges {e : α × α} (he : e ∈ edges l) : e.2 ∈ l := by
  have := List.mem_map_of_mem (f := Prod.snd) he
  rwa [map_snd_edges, List.mem_rotate] at this

/-- Different elements begin different edges. -/
theorem edge_eq_of_fst_eq (hnodup : l.Nodup) {e f : α × α} (he : e ∈ edges l) (hf : f ∈ edges l)
    (h : e.1 = f.1) : e = f :=
  List.inj_on_of_nodup_map (by rwa [map_fst_edges]) he hf h

theorem nodup_edges (hnodup : l.Nodup) : (edges l).Nodup :=
  .of_map Prod.fst (by rwa [map_fst_edges])

/-- The elements before and after one of at least three. -/
theorem exists_neighbours (hnodup : l.Nodup) (hlength : 3 ≤ l.length) (ha : a ∈ l) :
    ∃ b c, (b, a) ∈ edges l ∧ (a, c) ∈ edges l ∧ c ≠ a ∧ c ≠ b := by
  obtain ⟨first, last, rfl⟩ := List.append_of_mem ha
  have hperm := edges_append_comm first (a :: last)
  have hnodup' : (a :: last ++ first).Nodup := (List.perm_append_comm.nodup_iff).mp hnodup
  have hlength' : 3 ≤ (a :: last ++ first).length := by
    rw [List.length_append, Nat.add_comm, ← List.length_append]
    exact hlength
  rw [List.cons_append] at hperm hnodup' hlength'
  generalize last ++ first = rest at hperm hnodup' hlength'
  obtain ⟨c, rest, rfl⟩ := List.exists_cons_of_ne_nil (l := rest) (by rintro rfl; simp at hlength')
  obtain ⟨rest, b, rfl⟩ := List.eq_nil_or_concat' rest |>.resolve_left (by
    rintro rfl
    simp at hlength')
  have hedges : edges (a :: c :: (rest ++ [b])) =
      (a, c) :: (legs (c :: (rest ++ [b])) ++ [(b, a)]) := by
    have hclosed : a :: (c :: (rest ++ [b]) ++ [a]) = (a :: c :: rest) ++ b :: [a] := by simp
    rw [edges_cons, hclosed, legs_append]
    rfl
  rw [hedges] at hperm
  refine ⟨b, c, hperm.mem_iff.mpr ?_, hperm.mem_iff.mpr List.mem_cons_self, ?_, ?_⟩
  · exact List.mem_cons_of_mem _ (List.mem_append_right _ (List.mem_singleton_self _))
  · rintro rfl
    simp at hnodup'
  · rintro rfl
    simp at hnodup'

section Part
variable (q : α → Bool)

/-- The edge leads into the part. -/
def leadsIn (e : α × α) : Bool := !q e.1 && q e.2

/-- The edge leads out of it. -/
def leadsOut (e : α × α) : Bool := q e.1 && !q e.2

theorem countP_legs_in (a : α) (l : List α) (z : α) :
    (legs (a :: (l ++ [z]))).countP (leadsIn q) + (if q a then 1 else 0) =
      (legs (a :: (l ++ [z]))).countP (leadsOut q) + if q z then 1 else 0 := by
  induction l generalizing a with
  | nil =>
      show [(a, z)].countP _ + _ = [(a, z)].countP _ + _
      rw [List.countP_singleton, List.countP_singleton, leadsIn, leadsOut]
      cases q a <;> cases q z <;> rfl
  | cons b l ih =>
      have hb := ih b
      rw [List.cons_append, legs_cons_cons, List.countP_cons, List.countP_cons, leadsIn, leadsOut]
      cases hqa : q a <;> cases hqb : q b <;> simp [hqb] at hb ⊢ <;> omega

/-- **In and out**: a closed path leaves a part as often as it enters it. -/
theorem countP_edges_in (l : List α) :
    (edges l).countP (leadsIn q) = (edges l).countP (leadsOut q) := by
  cases l with
  | nil => rfl
  | cons a l =>
      have h := countP_legs_in q a l a
      rw [edges_cons]
      omega

/-- A path that never enters a part is in it or not. -/
theorem eq_of_no_edge_in (h : ∀ e ∈ edges l, ¬ leadsIn q e) :
    ∀ a ∈ l, ∀ b ∈ l, q a = q b := by
  have hout : ∀ e ∈ edges l, ¬ leadsOut q e := by
    rw [← List.countP_eq_zero, ← countP_edges_in, List.countP_eq_zero]
    exact h
  have hsame : ∀ e ∈ edges l, q e.1 = q e.2 := by
    intro e he
    have hin := h e he
    have hout := hout e he
    unfold leadsIn at hin
    unfold leadsOut at hout
    cases h₁ : q e.1 <;> cases h₂ : q e.2 <;> simp_all
  have hpath : ∀ (l : List α) (a : α), (∀ e ∈ legs (a :: l), q e.1 = q e.2) →
      ∀ b ∈ a :: l, q a = q b := by
    intro l
    induction l with
    | nil =>
        rintro a - b hb
        rw [List.mem_singleton.mp hb]
    | cons c l ih =>
        intro a hlegs b hb
        rw [legs_cons_cons, List.forall_mem_cons] at hlegs
        rcases List.mem_cons.mp hb with rfl | hb
        · rfl
        · exact hlegs.1.trans (ih c hlegs.2 b hb)
  cases l with
  | nil => exact fun a ha => absurd ha List.not_mem_nil
  | cons c l =>
      rw [edges_cons] at hsame
      have hall := hpath (l ++ [c]) c hsame
      have hmem : ∀ a ∈ c :: l, a ∈ c :: (l ++ [c]) := fun a ha =>
        List.mem_append_left [c] ha
      exact fun a ha b hb => (hall a (hmem a ha)).symm.trans (hall b (hmem b hb))

/-- What only edges have that lead in or out. -/
theorem countP_eq_in_add_out {p : α × α → Bool} (h : ∀ e, p e → leadsIn q e ∨ leadsOut q e)
    (es : List (α × α)) :
    es.countP p = (es.filter (leadsIn q)).countP p + (es.filter (leadsOut q)).countP p := by
  have hdisjoint : ∀ e, leadsIn q e → ¬ leadsOut q e := by
    intro e hin hout
    unfold leadsIn at hin
    unfold leadsOut at hout
    simp_all
  induction es with
  | nil => rfl
  | cons e es ih =>
      by_cases hin : leadsIn q e = true
      · rw [List.filter_cons_of_pos hin, List.filter_cons_of_neg (hdisjoint e hin),
          List.countP_cons, List.countP_cons, ih]
        omega
      · by_cases hout : leadsOut q e = true
        · rw [List.filter_cons_of_neg hin, List.filter_cons_of_pos hout, List.countP_cons,
            List.countP_cons, ih]
          omega
        · have hp : ¬ p e := fun hp => (h e hp).elim hin hout
          rw [List.filter_cons_of_neg hin, List.filter_cons_of_neg hout,
            List.countP_cons_of_neg hp, ih]

end Part

/-! ### Edges in the plane -/

section Plane
variable {K : Type*} [Field K] (x y : α → K)

/-- On which side of the line through `u` and `v` a point lies: positive is to the left. -/
def side (u v : α) (px py : K) : K := (x v - x u) * (py - y u) - (y v - y u) * (px - x u)

/-- Where the line through `u` and `v` is at a level. -/
def lineAt (u v : α) (py : K) : K := (x v - x u) * (py - y u) / (y v - y u) + x u

variable {x y} {u v w c d : α} {px py : K}

theorem lineAt_comm (h : y u ≠ y v) (py : K) : lineAt x y u v py = lineAt x y v u py := by
  have huv : y v - y u ≠ 0 := sub_ne_zero.mpr h.symm
  have hvu : y u - y v ≠ 0 := sub_ne_zero.mpr h
  unfold lineAt
  field_simp
  ring

/-- The side of a point shows where on its level it is. -/
theorem side_eq (h : y u ≠ y v) : side x y u v px py = (y v - y u) * (lineAt x y u v py - px) := by
  have huv : y v - y u ≠ 0 := sub_ne_zero.mpr h.symm
  unfold side lineAt
  field_simp
  ring

/-- The side of a point on an edge lies between those of the edge's ends. -/
theorem side_lineAt (h : y c ≠ y d) :
    (y d - y c) * side x y u v (lineAt x y c d py) py =
      (y d - py) * side x y u v (x c) (y c) + (py - y c) * side x y u v (x d) (y d) := by
  have hcd : y d - y c ≠ 0 := sub_ne_zero.mpr h.symm
  unfold side lineAt
  field_simp
  ring

theorem side_swap : side x y v u px py = -side x y u v px py := by
  unfold side
  ring

theorem side_fst : side x y u v (x u) (y u) = 0 := by
  unfold side
  ring

theorem side_snd : side x y u v (x v) (y v) = 0 := by
  unfold side
  ring

/-- How the corner at `v` is seen from a point of another level. -/
theorem corner_eq : side x y u v (x w) (y w) * (py - y v) =
    side x y v w px py * (y u - y v) + side x y u v px py * (y w - y v) := by
  unfold side
  ring

variable [LinearOrder K]

/-- Whether the ray from a point to the right crosses the edge. -/
def rayMeets (x y : α → K) (px py : K) (e : α × α) : Bool :=
  (decide (y e.1 > py) != decide (y e.2 > py)) && decide (px < lineAt x y e.1 e.2 py)

theorem rayMeets_swap (px py : K) (e : α × α) :
    rayMeets x y px py e.swap = rayMeets x y px py e := by
  unfold rayMeets
  rw [Prod.fst_swap, Prod.snd_swap]
  by_cases h : y e.1 = y e.2
  · simp [h]
  · rw [lineAt_comm (Ne.symm h), bne_comm]

/-- An edge that the ray crosses leads into the elements above it, or out of them. -/
theorem leads_of_rayMeets {e : α × α} (h : rayMeets x y px py e) :
    leadsIn (fun a => decide (y a > py)) e ∨ leadsOut (fun a => decide (y a > py)) e := by
  unfold rayMeets at h
  unfold leadsIn leadsOut
  cases h₁ : decide (y e.1 > py) <;> cases h₂ : decide (y e.2 > py) <;> simp_all

omit [Field K] in
theorem leadsIn_iff {e : α × α} :
    leadsIn (fun a => decide (y a > py)) e = true ↔ y e.1 ≤ py ∧ py < y e.2 := by
  simp [leadsIn]

omit [Field K] in
theorem leadsOut_iff {e : α × α} :
    leadsOut (fun a => decide (y a > py)) e = true ↔ y e.2 ≤ py ∧ py < y e.1 := by
  simp [leadsOut, and_comm]

theorem rayMeets_iff {e : α × α} (h : y e.1 ≤ py ∧ py < y e.2 ∨ y e.2 ≤ py ∧ py < y e.1) :
    rayMeets x y px py e = true ↔ px < lineAt x y e.1 e.2 py := by
  have hstraddles : (decide (y e.1 > py) != decide (y e.2 > py)) = true := by
    rcases h with ⟨h₁, h₂⟩ | ⟨h₁, h₂⟩
    · simp [h₁, h₂]
    · simp [h₁, h₂]
  rw [rayMeets, hstraddles, Bool.true_and, decide_eq_true_eq]

/-- The edges that the ray crosses are those that lead up or down. -/
theorem countP_rayMeets (l : List α) (px py : K) :
    (edges l).countP (rayMeets x y px py) =
      ((edges l).filter (leadsIn fun a => decide (y a > py))).countP (rayMeets x y px py) +
        ((edges l).filter (leadsOut fun a => decide (y a > py))).countP (rayMeets x y px py) :=
  countP_eq_in_add_out _ (fun _ => leads_of_rayMeets) _

/-! ### Convex polygons -/

/-- The corners of a strictly convex polygon, counterclockwise: those not on an edge are strictly to
its left. -/
structure ConvexLeft (x y : α → K) (l : List α) : Prop where
  nodup : l.Nodup
  corners : 3 ≤ l.length
  left : ∀ e ∈ edges l, ∀ w ∈ l, w ≠ e.1 → w ≠ e.2 → 0 < side x y e.1 e.2 (x w) (y w)

namespace ConvexLeft
variable {e : α × α} (h : ConvexLeft x y l)
include h

theorem nonneg (he : e ∈ edges l) (hw : w ∈ l) : 0 ≤ side x y e.1 e.2 (x w) (y w) := by
  by_cases h₁ : w = e.1
  · rw [h₁, side_fst]
  · by_cases h₂ : w = e.2
    · rw [h₂, side_snd]
    · exact (h.left e he w hw h₁ h₂).le

end ConvexLeft

variable [IsStrictOrderedRing K]

/-- Between two points of a level that are on the left, all are. -/
theorem side_nonneg_between {low high : K} (hlow : 0 ≤ side x y u v low py)
    (hhigh : 0 ≤ side x y u v high py) (h₁ : low ≤ px) (h₂ : px ≤ high) :
    0 ≤ side x y u v px py := by
  unfold side at hlow hhigh ⊢
  rcases le_total (y v) (y u) with h | h
  · have := mul_nonneg (sub_nonneg.mpr h) (sub_nonneg.mpr h₁)
    linarith
  · have := mul_nonneg (sub_nonneg.mpr h) (sub_nonneg.mpr h₂)
    linarith

namespace ConvexLeft
variable {e f : α × α} (h : ConvexLeft x y l)
include h

/-- Where an edge meets the level it is not to the right of another. -/
theorem side_lineAt_nonneg (he : e ∈ edges l) (hf : f ∈ edges l)
    (hlevel : y f.1 ≤ py ∧ py < y f.2 ∨ y f.2 ≤ py ∧ py < y f.1) :
    0 ≤ side x y e.1 e.2 (lineAt x y f.1 f.2 py) py := by
  have hfirst := h.nonneg he (fst_mem_of_edges hf)
  have hsecond := h.nonneg he (snd_mem_of_edges hf)
  rcases hlevel with ⟨h₁, h₂⟩ | ⟨h₁, h₂⟩
  · have hpos : 0 < y f.2 - y f.1 := sub_pos.mpr (h₁.trans_lt h₂)
    refine nonneg_of_mul_nonneg_right (b := side x y e.1 e.2 _ py) ?_ hpos
    rw [side_lineAt (h₁.trans_lt h₂).ne]
    exact add_nonneg (mul_nonneg (sub_nonneg.mpr h₂.le) hfirst)
      (mul_nonneg (sub_nonneg.mpr h₁) hsecond)
  · have hpos : 0 < y f.1 - y f.2 := sub_pos.mpr (h₁.trans_lt h₂)
    refine nonneg_of_mul_nonneg_right (b := side x y e.1 e.2 _ py) ?_ hpos
    rw [lineAt_comm (h₁.trans_lt h₂).ne', side_lineAt (h₁.trans_lt h₂).ne]
    exact add_nonneg (mul_nonneg (sub_nonneg.mpr h₂.le) hsecond)
      (mul_nonneg (sub_nonneg.mpr h₁) hfirst)

/-- What meets the level meets it left of an edge that leads up. -/
theorem lineAt_le (he : e ∈ edges l) (hf : f ∈ edges l) (hup : y e.1 ≤ py ∧ py < y e.2)
    (hlevel : y f.1 ≤ py ∧ py < y f.2 ∨ y f.2 ≤ py ∧ py < y f.1) :
    lineAt x y f.1 f.2 py ≤ lineAt x y e.1 e.2 py := by
  have hnonneg := h.side_lineAt_nonneg he hf hlevel
  have hlt := hup.1.trans_lt hup.2
  rw [side_eq hlt.ne] at hnonneg
  exact sub_nonneg.mp (nonneg_of_mul_nonneg_right hnonneg (sub_pos.mpr hlt))

/-- **One edge leads up** through a level. -/
theorem up_unique (he : e ∈ edges l) (hf : f ∈ edges l) (hupe : y e.1 ≤ py ∧ py < y e.2)
    (hupf : y f.1 ≤ py ∧ py < y f.2) : e = f := by
  have hlte := hupe.1.trans_lt hupe.2
  have hltf := hupf.1.trans_lt hupf.2
  have hat : lineAt x y f.1 f.2 py = lineAt x y e.1 e.2 py :=
    le_antisymm (h.lineAt_le he hf hupe (.inl hupf)) (h.lineAt_le hf he hupf (.inl hupe))
  have hzero : side x y e.1 e.2 (lineAt x y f.1 f.2 py) py = 0 := by
    rw [hat, side_eq hlte.ne, sub_self, mul_zero]
  have hsum : (y f.2 - y f.1) * side x y e.1 e.2 (lineAt x y f.1 f.2 py) py =
      (y f.2 - py) * side x y e.1 e.2 (x f.1) (y f.1) +
        (py - y f.1) * side x y e.1 e.2 (x f.2) (y f.2) := side_lineAt hltf.ne
  rw [hzero, mul_zero] at hsum
  have hfirst := h.nonneg he (fst_mem_of_edges hf)
  have hsecond := mul_nonneg (sub_nonneg.mpr hupf.1) (h.nonneg he (snd_mem_of_edges hf))
  have hon : side x y e.1 e.2 (x f.1) (y f.1) = 0 := by
    by_contra hne
    have hpos := mul_pos (sub_pos.mpr hupf.2) (lt_of_le_of_ne hfirst (Ne.symm hne))
    linarith
  refine edge_eq_of_fst_eq h.nodup he hf ?_
  by_contra hne
  have hend : f.1 ≠ e.2 := by
    rintro heq
    exact absurd hupf.1 (not_le.mpr (heq ▸ hupe.2))
  exact (h.left e he f.1 (fst_mem_of_edges hf) (Ne.symm hne) hend).ne' hon

/-- The edges through a level: none, or one up and one down. -/
theorem edges_at_level (py : K) :
    (edges l).filter (leadsIn fun a => decide (y a > py)) = [] ∧
        (edges l).filter (leadsOut fun a => decide (y a > py)) = [] ∨
      ∃ e f, e ∈ edges l ∧ f ∈ edges l ∧ (y e.1 ≤ py ∧ py < y e.2) ∧ (y f.2 ≤ py ∧ py < y f.1) ∧
        (edges l).filter (leadsIn fun a => decide (y a > py)) = [e] ∧
        (edges l).filter (leadsOut fun a => decide (y a > py)) = [f] := by
  have hlength := countP_edges_in (fun a => decide (y a > py)) l
  rw [List.countP_eq_length_filter, List.countP_eq_length_filter] at hlength
  have hups : ∀ e ∈ (edges l).filter (leadsIn fun a => decide (y a > py)),
      e ∈ edges l ∧ y e.1 ≤ py ∧ py < y e.2 := by
    intro e he
    obtain ⟨hmem, hup⟩ := List.mem_filter.mp he
    exact ⟨hmem, leadsIn_iff.mp hup⟩
  have hdowns : ∀ f ∈ (edges l).filter (leadsOut fun a => decide (y a > py)),
      f ∈ edges l ∧ y f.2 ≤ py ∧ py < y f.1 := by
    intro f hf
    obtain ⟨hmem, hdown⟩ := List.mem_filter.mp hf
    exact ⟨hmem, leadsOut_iff.mp hdown⟩
  have hdistinct := (nodup_edges h.nodup).filter (leadsIn fun a => decide (y a > py))
  generalize (edges l).filter (leadsIn fun a => decide (y a > py)) = ups at *
  generalize (edges l).filter (leadsOut fun a => decide (y a > py)) = downs at *
  match ups, downs, hlength with
  | [], [], _ => exact .inl ⟨rfl, rfl⟩
  | [e], [f], _ =>
      obtain ⟨he, hup⟩ := hups e (List.mem_singleton_self e)
      obtain ⟨hf, hdown⟩ := hdowns f (List.mem_singleton_self f)
      exact .inr ⟨e, f, he, hf, hup, hdown, rfl, rfl⟩
  | e :: e' :: ups, _, _ =>
      obtain ⟨he, hup⟩ := hups e List.mem_cons_self
      obtain ⟨he', hup'⟩ := hups e' (List.mem_cons_of_mem _ List.mem_cons_self)
      rw [h.up_unique he he' hup hup'] at hdistinct
      simp at hdistinct

/-- A point to the left of all edges is on a level that an edge leads through. -/
theorem exists_up_of_inside (hin : ∀ e ∈ edges l, 0 < side x y e.1 e.2 px py) :
    (edges l).filter (leadsIn fun a => decide (y a > py)) ≠ [] := by
  intro hnone
  have hsame := eq_of_no_edge_in (fun a => decide (y a > py)) fun e he hup =>
    absurd (List.mem_filter.mpr ⟨he, hup⟩) (hnone ▸ List.not_mem_nil)
  have hne : l ≠ [] := by
    rintro rfl
    exact absurd h.corners (by simp)
  have hcorner : ∀ v ∈ l, ∃ u w, (u, v) ∈ edges l ∧ (v, w) ∈ edges l ∧
      0 < side x y u v (x w) (y w) := by
    intro v hv
    obtain ⟨u, w, huv, hvw, hwv, hwu⟩ := exists_neighbours h.nodup h.corners hv
    exact ⟨u, w, huv, hvw, h.left _ huv w (snd_mem_of_edges hvw) hwu hwv⟩
  by_cases habove : ∀ a ∈ l, py < y a
  · -- All corners are above the point: look at the lowest.
    have hsome : l.argmin y ≠ none := mt List.argmin_eq_none.mp hne
    obtain ⟨v, hv⟩ := Option.ne_none_iff_exists'.mp hsome
    have hmem := List.argmin_mem hv
    obtain ⟨u, w, huv, hvw, hturn⟩ := hcorner v hmem
    have hu := sub_nonneg.mpr (List.le_of_mem_argmin (fst_mem_of_edges huv) hv)
    have hw := sub_nonneg.mpr (List.le_of_mem_argmin (snd_mem_of_edges hvw) hv)
    have hseen : side x y u v (x w) (y w) * (py - y v) =
        side x y v w px py * (y u - y v) + side x y u v px py * (y w - y v) := corner_eq
    have hleft := mul_neg_of_pos_of_neg hturn (sub_neg.mpr (habove v hmem))
    have hfirst := mul_nonneg (hin _ hvw).le hu
    have hsecond := mul_nonneg (hin _ huv).le hw
    linarith
  · -- None is: look at the highest.
    have hbelow : ∀ a ∈ l, y a ≤ py := by
      push Not at habove
      obtain ⟨b, hb, hle⟩ := habove
      intro a ha
      have hab := hsame a ha b hb
      rw [decide_eq_decide] at hab
      exact not_lt.mp fun hlt => not_lt.mpr hle (hab.mp hlt)
    have hsome : l.argmax y ≠ none := mt List.argmax_eq_none.mp hne
    obtain ⟨v, hv⟩ := Option.ne_none_iff_exists'.mp hsome
    have hmem := List.argmax_mem hv
    obtain ⟨u, w, huv, hvw, hturn⟩ := hcorner v hmem
    have hu := sub_nonneg.mpr (List.le_of_mem_argmax (fst_mem_of_edges huv) hv)
    have hw := sub_nonneg.mpr (List.le_of_mem_argmax (snd_mem_of_edges hvw) hv)
    have hseen : side x y u v (x w) (y w) * (py - y v) =
        side x y v w px py * (y u - y v) + side x y u v px py * (y w - y v) := corner_eq
    have hleft := mul_nonneg hturn.le (sub_nonneg.mpr (hbelow v hmem))
    have hfirst := mul_nonneg (hin _ hvw).le hu
    have hsecond := mul_nonneg (hin _ huv).le hw
    -- Then the corner is flat.
    have hulevel : y v - y u = 0 := by
      by_contra hne
      have := mul_pos (hin _ hvw) (lt_of_le_of_ne hu (Ne.symm hne))
      linarith
    have hwlevel : y v - y w = 0 := by
      by_contra hne
      have := mul_pos (hin _ huv) (lt_of_le_of_ne hw (Ne.symm hne))
      linarith
    have hflat : side x y u v (x w) (y w) = 0 := by
      have hyw : y w - y u = 0 := by linear_combination hulevel - hwlevel
      rw [side, hulevel, hyw]
      ring
    exact hturn.ne' hflat

/-- **A point inside**: the ray crosses the edge that leads up, and no other. -/
theorem countP_of_inside (hin : ∀ e ∈ edges l, 0 < side x y e.1 e.2 px py) :
    (edges l).countP (rayMeets x y px py) = 1 := by
  rw [countP_rayMeets]
  rcases h.edges_at_level py with ⟨hnone, -⟩ | ⟨e, f, he, hf, hup, hdown, hups, hdowns⟩
  · exact absurd hnone (h.exists_up_of_inside hin)
  · have hlte := hup.1.trans_lt hup.2
    have hltf := hdown.1.trans_lt hdown.2
    have hpose := hin e he
    have hposf := hin f hf
    rw [side_eq hlte.ne] at hpose
    rw [side_eq hltf.ne'] at hposf
    have hmeets : rayMeets x y px py e = true :=
      (rayMeets_iff (.inl hup)).mpr
        (sub_pos.mp ((mul_pos_iff_of_pos_left (sub_pos.mpr hlte)).mp hpose))
    have hmisses : ¬ rayMeets x y px py f = true := by
      rw [rayMeets_iff (.inr hdown), not_lt]
      by_contra hlt
      have := mul_neg_of_neg_of_pos (sub_neg.mpr hltf) (sub_pos.mpr (not_le.mp hlt))
      exact absurd hposf this.not_gt
    rw [hups, hdowns, List.countP_singleton, List.countP_singleton, if_pos hmeets, if_neg hmisses]

/-- **A point outside**: the ray crosses the two edges through its level or neither. -/
theorem even_of_outside {g : α × α} (hg : g ∈ edges l) (hout : side x y g.1 g.2 px py < 0) :
    Even ((edges l).countP (rayMeets x y px py)) := by
  rw [countP_rayMeets]
  rcases h.edges_at_level py with ⟨hups, hdowns⟩ | ⟨e, f, he, hf, hup, hdown, hups, hdowns⟩
  · rw [hups, hdowns]
    exact Even.zero
  · have hle := h.lineAt_le he hf hup (.inr hdown)
    have hsame : rayMeets x y px py e = rayMeets x y px py f := by
      rw [Bool.eq_iff_iff, rayMeets_iff (.inl hup), rayMeets_iff (.inr hdown)]
      refine ⟨fun hlt => ?_, fun hlt => hlt.trans_le hle⟩
      by_contra hge
      have hbetween := side_nonneg_between (h.side_lineAt_nonneg hg hf (.inr hdown))
        (h.side_lineAt_nonneg hg he (.inl hup)) (not_lt.mp hge) hlt.le
      exact absurd hbetween (not_le.mpr hout)
    rw [hups, hdowns, List.countP_singleton, List.countP_singleton, hsame]
    exact ⟨_, rfl⟩

end ConvexLeft

end Plane

end Support
