import LoongNvr.Rules.Evaluators
import LoongNvr.Support.Polygon
import Mathlib.Data.List.Zip
import Mathlib.Tactic.Tauto

/-!
# Rules — PointInPolygon

What `RegionIntrusionEvaluator::PointInPolygon` says of a polygon and a point: whether the ray from
the point to the right crosses an odd number of edges.

* `pointInPolygon_eq`: so it is, with each vertex and the next as an edge.
* `polygon_cut`: cutting a polygon along a chord splits what is inside of it, the order in which the
  vertices are listed does not matter, and nothing is divided by zero.
* `convex_inside_outside`: on a strictly convex polygon it is right.
-/

namespace LoongNvr.Rules
open Support

/-! ### The edges -/

/-- The ray crosses the edge from one vertex to another. -/
def meetsEdge (point : Point2D) : Point2D × Point2D → Bool :=
  rayMeets Point2D.x Point2D.y point.x point.y

theorem rayCrosses_eq (point vi vj : Point2D) :
    rayCrosses point vi vj = meetsEdge point (vi, vj) := rfl

theorem meetsEdge_swap (point : Point2D) (e : Point2D × Point2D) :
    meetsEdge point e.swap = meetsEdge point e := rayMeets_swap _ _ e

theorem rotate_rotateRight {α : Type} (l : List α) : (l.rotateRight 1).rotate 1 = l := by
  unfold List.rotateRight
  by_cases hshort : l.length ≤ 1
  · simp only [if_pos hshort]
    match l, hshort with
    | [], _ => rfl
    | [a], _ => exact List.rotate_singleton a 1
  · have hone : 1 % l.length = 1 := Nat.mod_eq_of_lt (not_le.mp hshort)
    have hnext : l.length - 1 + 1 = l.length := by omega
    simp only [if_neg hshort, hone]
    rw [← List.rotate_eq_drop_append_take (Nat.sub_le _ _), List.rotate_rotate, hnext,
      List.rotate_length]

/-- The vertices with those before them, as the loop comes to them. -/
theorem zip_rotateRight_perm (polygon : List Point2D) :
    (polygon.zip (polygon.rotateRight 1)).Perm ((edges polygon).map Prod.swap) := by
  have hback := rotate_rotateRight polygon
  generalize polygon.rotateRight 1 = before at hback
  subst hback
  have hzip : (before.rotate 1).zip before = (edges before).map Prod.swap :=
    (List.zip_swap before (before.rotate 1)).symm
  rw [hzip]
  exact ((edges_rotate_perm before 1).map Prod.swap).symm

/-- A loop that changes its answer for some elements. -/
theorem foldl_toggle {β : Type} (p : β → Bool) (l : List β) (inside : Bool) :
    l.foldl (fun inside e => if p e then !inside else inside) inside =
      (inside ^^ decide (Odd (l.countP p))) := by
  induction l generalizing inside with
  | nil => simp
  | cons e l ih =>
      rw [List.foldl_cons, ih, List.countP_cons]
      by_cases hp : p e = true
      · rw [if_pos hp, if_pos hp, Bool.eq_iff_iff]
        simp only [Nat.odd_add_one, decide_not, Bool.not_xor, Bool.xor_not]
      · simp [hp]

/-- **The answer** is whether an odd number of edges is crossed. -/
theorem pointInPolygon_eq (point : Point2D) (polygon : List Point2D) :
    pointInPolygon point polygon =
      (decide (3 ≤ polygon.length) && decide (Odd ((edges polygon).countP (meetsEdge point)))) := by
  have hcount : (polygon.zip (polygon.rotateRight 1)).countP (meetsEdge point) =
      (edges polygon).countP (meetsEdge point) := by
    rw [(zip_rotateRight_perm polygon).countP_eq, countP_map_swap (meetsEdge_swap point)]
  have hloop : ∀ toggle : Bool → Point2D × Point2D → Bool,
      (∀ inside edge, toggle inside edge = if meetsEdge point edge then !inside else inside) →
      (polygon.zip (polygon.rotateRight 1)).foldl toggle false =
        decide (Odd ((edges polygon).countP (meetsEdge point))) := by
    intro toggle htoggle
    have heq : toggle = fun inside edge => if meetsEdge point edge then !inside else inside := by
      funext inside edge
      exact htoggle inside edge
    rw [heq, ← hcount, ← Bool.false_xor (decide _), ← foldl_toggle]
  unfold pointInPolygon
  by_cases hshort : polygon.length < 3
  · rw [if_pos hshort, decide_eq_false (not_le.mpr hshort), Bool.false_and]
  · rw [if_neg hshort, decide_eq_true (not_lt.mp hshort), Bool.true_and]
    exact hloop _ fun _ _ => rfl

/-! ### Cutting a polygon -/

/-- A division that fails where its divisor is zero. -/
def divide (a b : ℚ) : Option ℚ := if b = 0 then none else some (a / b)

/-- `rayCrosses` with the division checked; the right operand of `&&` is evaluated if need be. -/
def rayCrossesChecked (point vi vj : Point2D) : Option Bool :=
  if decide (vi.y > point.y) != decide (vj.y > point.y) then do
    let q ← divide ((vj.x - vi.x) * (point.y - vi.y)) (vj.y - vi.y)
    some (point.x < q + vi.x)
  else some false

/-- `pointInPolygon` with the divisions checked. -/
def pointInPolygonChecked (point : Point2D) (polygon : List Point2D) : Option Bool :=
  if polygon.length < 3 then some false
  else (polygon.zip (polygon.rotateRight 1)).foldlM (fun inside (vi, vj) => do
    let crosses ← rayCrossesChecked point vi vj
    some (if crosses then !inside else inside)) false

/-- Only edges between vertices of different heights are divided by. -/
theorem rayCrossesChecked_eq (point vi vj : Point2D) :
    rayCrossesChecked point vi vj = some (rayCrosses point vi vj) := by
  unfold rayCrossesChecked rayCrosses
  by_cases hsides : (decide (vi.y > point.y) != decide (vj.y > point.y)) = true
  · have hheights : vj.y - vi.y ≠ 0 := by
      intro heq
      rw [sub_eq_zero.mp heq] at hsides
      simp at hsides
    rw [if_pos hsides, hsides, divide, if_neg hheights]
    rfl
  · rw [if_neg hsides, Bool.not_eq_true _ |>.mp hsides, Bool.false_and]

theorem pointInPolygonChecked_eq (point : Point2D) (polygon : List Point2D) :
    pointInPolygonChecked point polygon = some (pointInPolygon point polygon) := by
  unfold pointInPolygonChecked pointInPolygon
  simp only [rayCrossesChecked_eq, Option.bind_eq_bind, Option.bind_some]
  split
  · rfl
  · exact List.foldlM_pure

theorem pointInPolygon_rotate (point : Point2D) (polygon : List Point2D) (n : ℕ) :
    pointInPolygon point (polygon.rotate n) = pointInPolygon point polygon := by
  rw [pointInPolygon_eq, pointInPolygon_eq, List.length_rotate,
    (edges_rotate_perm polygon n).countP_eq]

theorem pointInPolygon_reverse (point : Point2D) (polygon : List Point2D) :
    pointInPolygon point polygon.reverse = pointInPolygon point polygon := by
  rw [pointInPolygon_eq, pointInPolygon_eq, List.length_reverse,
    countP_edges_reverse (meetsEdge_swap point)]

/-- The vertices from one to another. -/
def arc (polygon : List Point2D) (i k : ℕ) : List Point2D := (polygon.drop i).take (k + 1 - i)

/-- The vertices from one to the end and on from the beginning to another. -/
def outerArc (polygon : List Point2D) (i k : ℕ) : List Point2D :=
  polygon.drop k ++ polygon.take (i + 1)

theorem pointInPolygon_cut (point : Point2D) (first between last : List Point2D) (a b : Point2D)
    (hbetween : between ≠ []) (houter : last ++ first ≠ []) :
    pointInPolygon point (first ++ a :: (between ++ b :: last)) =
      (pointInPolygon point (a :: (between ++ [b])) ^^
        pointInPolygon point (b :: (last ++ first ++ [a]))) := by
  have hbetween := List.length_pos_of_ne_nil hbetween
  have houter := List.length_pos_of_ne_nil houter
  have hcut := countP_edges_cut (meetsEdge_swap point) first between last a b
  have hodd : Odd ((edges (first ++ a :: (between ++ b :: last))).countP (meetsEdge point)) ↔
      (Odd ((edges (a :: (between ++ [b]))).countP (meetsEdge point)) ↔
        ¬ Odd ((edges (b :: (last ++ first ++ [a]))).countP (meetsEdge point))) := by
    simp only [Nat.odd_iff]
    omega
  rw [List.length_append] at houter
  have hwhole : 3 ≤ (first ++ a :: (between ++ b :: last)).length := by
    simp only [List.length_append, List.length_cons]
    omega
  have hinner : 3 ≤ (a :: (between ++ [b])).length := by
    simp only [List.length_append, List.length_cons, List.length_nil]
    omega
  have hrest : 3 ≤ (b :: (last ++ first ++ [a])).length := by
    simp only [List.length_append, List.length_cons, List.length_nil]
    omega
  rw [pointInPolygon_eq, pointInPolygon_eq, pointInPolygon_eq, decide_eq_true hwhole,
    decide_eq_true hinner, decide_eq_true hrest, Bool.true_and, Bool.true_and, Bool.true_and,
    Bool.eq_iff_iff, decide_eq_true_eq, hodd, Bool.xor_iff_ne, ne_eq, decide_eq_decide]
  exact iff_not_comm.trans (iff_comm.trans not_iff.symm)

/-- A polygon with two of its vertices named. -/
theorem exists_split {polygon : List Point2D} {i k : ℕ} (hik : i < k) (hk : k < polygon.length) :
    ∃ first a between b last, polygon = first ++ a :: (between ++ b :: last) ∧
      i = first.length ∧ k = first.length + 1 + between.length := by
  have hi : i < polygon.length := hik.trans hk
  have hfirst : polygon = polygon.take i ++ polygon[i] :: polygon.drop (i + 1) := by
    rw [← List.drop_eq_getElem_cons hi, List.take_append_drop]
  have hk' : k - (i + 1) < (polygon.drop (i + 1)).length := by
    rw [List.length_drop]
    omega
  have hlast : polygon.drop (i + 1) = (polygon.drop (i + 1)).take (k - (i + 1)) ++
      (polygon.drop (i + 1))[k - (i + 1)] :: (polygon.drop (i + 1)).drop (k - (i + 1) + 1) := by
    rw [← List.drop_eq_getElem_cons hk', List.take_append_drop]
  refine ⟨_, _, _, _, _, hfirst.trans (congrArg (fun rest => _ ++ _ :: rest) hlast), ?_, ?_⟩
  · rw [List.length_take]
    omega
  · rw [List.length_take, List.length_take]
    omega

/-- **Cutting a polygon** between two vertices that are not neighbours: what is inside of it is
inside of exactly one part.  Where the list of the vertices begins and in which direction it goes
does not matter, and no division fails. -/
theorem polygon_cut (point : Point2D) (polygon : List Point2D) :
    (∀ i k, i + 2 ≤ k → k < polygon.length → 0 < i ∨ k + 1 < polygon.length →
      pointInPolygon point polygon =
        (pointInPolygon point (arc polygon i k) ^^ pointInPolygon point (outerArc polygon i k))) ∧
      (∀ n, pointInPolygon point (polygon.rotate n) = pointInPolygon point polygon) ∧
      pointInPolygon point polygon.reverse = pointInPolygon point polygon ∧
      pointInPolygonChecked point polygon = some (pointInPolygon point polygon) := by
  refine ⟨fun i k hik hk houter => ?_, pointInPolygon_rotate point polygon,
    pointInPolygon_reverse point polygon, pointInPolygonChecked_eq point polygon⟩
  obtain ⟨first, a, between, b, last, rfl, rfl, rfl⟩ := exists_split (Nat.lt_of_succ_lt hik) hk
  have harc : arc (first ++ a :: (between ++ b :: last)) first.length
      (first.length + 1 + between.length) = a :: (between ++ [b]) := by
    have hlength : first.length + 1 + between.length + 1 - first.length =
        between.length + 1 + 1 := by omega
    rw [arc, List.drop_left, hlength, List.take_succ_cons, List.take_length_add_append]
    rfl
  have houterArc : outerArc (first ++ a :: (between ++ b :: last)) first.length
      (first.length + 1 + between.length) = b :: (last ++ first ++ [a]) := by
    have hsplit : first ++ a :: (between ++ b :: last) = (first ++ a :: between) ++ b :: last := by
      simp
    have hlength : first.length + 1 + between.length = (first ++ a :: between).length := by
      rw [List.length_append, List.length_cons]
      omega
    rw [outerArc, List.take_length_add_append, hlength, hsplit, List.drop_left, List.cons_append,
      ← List.append_assoc]
    rfl
  rw [harc, houterArc]
  refine pointInPolygon_cut point first between last a b ?_ ?_
  · rintro rfl
    simp at hik
  · intro hnone
    obtain ⟨rfl, rfl⟩ := List.append_eq_nil_iff.mp hnone
    simp only [List.length_nil, List.nil_append, List.length_cons, List.length_append] at houter
    omega

/-- Two triangles with a corner in common, as one polygon that crosses itself. -/
def bowTie : List Point2D := [⟨0, 0⟩, ⟨2, 2⟩, ⟨2, 0⟩, ⟨0, 2⟩]

theorem bowTie_cut :
    pointInPolygon ⟨1 / 2, 1⟩ bowTie =
      (pointInPolygon ⟨1 / 2, 1⟩ (arc bowTie 1 3) ^^
        pointInPolygon ⟨1 / 2, 1⟩ (outerArc bowTie 1 3)) :=
  (polygon_cut ⟨1 / 2, 1⟩ bowTie).1 1 3 (by decide) (by decide) (.inl (by decide))

/-! ### Convex polygons -/

/-- In which direction the vertices are listed, the y axis pointing up. -/
inductive Orientation
  | counterclockwise
  | clockwise
  deriving DecidableEq, Repr

/-- How far on the inner side of an edge a point lies, negative on the outer side. -/
def inward : Orientation → Point2D × Point2D → Point2D → ℚ
  | .counterclockwise, e, point => side Point2D.x Point2D.y e.1 e.2 point.x point.y
  | .clockwise, e, point => -side Point2D.x Point2D.y e.1 e.2 point.x point.y

/-- A strictly convex polygon: every vertex that is not on an edge is strictly on its inner side. -/
structure StrictlyConvex (orientation : Orientation) (polygon : List Point2D) : Prop where
  nodup : polygon.Nodup
  vertices : 3 ≤ polygon.length
  inner : ∀ e ∈ edges polygon, ∀ w ∈ polygon, w ≠ e.1 → w ≠ e.2 → 0 < inward orientation e w

theorem inward_swap (point : Point2D) (e : Point2D × Point2D) :
    inward .clockwise e.swap point = inward .counterclockwise e point := by
  rw [inward, inward, Prod.fst_swap, Prod.snd_swap, side_swap, neg_neg]

/-- Listed backwards the vertices go the other way round. -/
theorem StrictlyConvex.reverse {polygon : List Point2D} (h : StrictlyConvex .clockwise polygon) :
    StrictlyConvex .counterclockwise polygon.reverse where
  nodup := List.nodup_reverse.mpr h.nodup
  vertices := h.vertices.trans_eq List.length_reverse.symm
  inner e he w hw h₁ h₂ := by
    rw [← inward_swap]
    exact h.inner e.swap (mem_edges_reverse.mp he) w (List.mem_reverse.mp hw) h₂ h₁

section Convex
variable {polygon : List Point2D} {point : Point2D}

theorem convexLeft_of_strictlyConvex (h : StrictlyConvex .counterclockwise polygon) :
    ConvexLeft Point2D.x Point2D.y polygon := ⟨h.nodup, h.vertices, h.inner⟩

theorem pointInPolygon_of_inside (h : StrictlyConvex .counterclockwise polygon)
    (hin : ∀ e ∈ edges polygon, 0 < inward .counterclockwise e point) :
    pointInPolygon point polygon = true := by
  have hone : (edges polygon).countP (meetsEdge point) = 1 :=
    (convexLeft_of_strictlyConvex h).countP_of_inside hin
  rw [pointInPolygon_eq, decide_eq_true h.vertices, hone]
  rfl

theorem pointInPolygon_of_outside (h : StrictlyConvex .counterclockwise polygon)
    {e : Point2D × Point2D} (he : e ∈ edges polygon)
    (hout : inward .counterclockwise e point < 0) : pointInPolygon point polygon = false := by
  have heven : Even ((edges polygon).countP (meetsEdge point)) :=
    (convexLeft_of_strictlyConvex h).even_of_outside he hout
  rw [pointInPolygon_eq, decide_eq_false (Nat.not_odd_iff_even.mpr heven), Bool.and_false]

end Convex

/-- **On a strictly convex polygon** the points strictly on the inner side of all edges are inside,
and those strictly on the outer side of an edge are not. -/
theorem convex_inside_outside (orientation : Orientation) (polygon : List Point2D)
    (h : StrictlyConvex orientation polygon) (point : Point2D) :
    ((∀ e ∈ edges polygon, 0 < inward orientation e point) →
      pointInPolygon point polygon = true) ∧
      ((∃ e ∈ edges polygon, inward orientation e point < 0) →
        pointInPolygon point polygon = false) := by
  cases orientation with
  | counterclockwise =>
      refine ⟨pointInPolygon_of_inside h, ?_⟩
      rintro ⟨e, he, hout⟩
      exact pointInPolygon_of_outside h he hout
  | clockwise =>
      rw [← pointInPolygon_reverse]
      constructor
      · intro hin
        refine pointInPolygon_of_inside h.reverse fun e he => ?_
        rw [← inward_swap]
        exact hin e.swap (mem_edges_reverse.mp he)
      · rintro ⟨e, he, hout⟩
        refine pointInPolygon_of_outside (e := e.swap) h.reverse (mem_edges_reverse.mpr he) ?_
        rwa [← inward_swap, Prod.swap_swap]

/-- A square region. -/
def squareRegion : List Point2D := [⟨0, 0⟩, ⟨2, 0⟩, ⟨2, 2⟩, ⟨0, 2⟩]

theorem strictlyConvex_squareRegion : StrictlyConvex .counterclockwise squareRegion where
  nodup := by decide +kernel
  vertices := by decide
  inner := by decide +kernel

theorem squareRegion_inside_outside :
    pointInPolygon ⟨1, 1⟩ squareRegion = true ∧ pointInPolygon ⟨3, 1⟩ squareRegion = false :=
  ⟨(convex_inside_outside .counterclockwise squareRegion strictlyConvex_squareRegion ⟨1, 1⟩).1
      (by decide +kernel),
    (convex_inside_outside .counterclockwise squareRegion strictlyConvex_squareRegion ⟨3, 1⟩).2
      (by decide +kernel)⟩

end LoongNvr.Rules
