import Mathlib.Data.List.Sort

/-!
# Support — Sorter

`std::sort` by a strict comparison: some rearrangement of the list in which nothing stands after
an element it should come before.  What it does with elements neither of which comes before the
other is up to the library, so results about a program that sorts are about every `Sorter`.

* `Sorter.byKeyDesc`, `Sorter.byKeyAsc`: insertion sort, largest or smallest key first, one such
  function.
* `Sorter.unordered`: where nothing comes before anything else.
* `Sorter.mem`: sorting keeps the elements.
* `pages`: a list that is sorted by a key anew for each page of it.
* `Crosses key l c`: elements of one key are on both sides of a place.
* `pages_perm_iff`: the pages make up the list, however each is sorted, exactly when no key crosses
  from one page to the next.
-/

namespace Support

variable {α : Type*}

/-- A sorting function for the comparison `before`. -/
structure Sorter (before : α → α → Prop) where
  sort : List α → List α
  perm : ∀ l, (sort l).Perm l
  sorted : ∀ l, (sort l).Pairwise fun a b => ¬ before b a

namespace Sorter

variable {before : α → α → Prop}

theorem mem (s : Sorter before) {l : List α} {a : α} : a ∈ s.sort l ↔ a ∈ l := (s.perm l).mem_iff

variable {κ : Type*} [LinearOrder κ]

/-- Insertion sort by a key, the largest first. -/
def byKeyDesc (key : α → κ) : Sorter fun a b => key a > key b where
  sort l := l.insertionSort fun a b => key a ≥ key b
  perm l := List.perm_insertionSort _ l
  sorted l := by
    have total : Std.Total fun a b : α => key a ≥ key b := ⟨fun a b => le_total (key b) (key a)⟩
    have trans : IsTrans α fun a b => key a ≥ key b := ⟨fun _ _ _ hab hbc => hbc.trans hab⟩
    exact (List.pairwise_insertionSort (fun a b => key a ≥ key b) l).imp fun h => not_lt_of_ge h

/-- Insertion sort by a key, the smallest first. -/
def byKeyAsc (key : α → κ) : Sorter fun a b => key a < key b :=
  byKeyDesc fun a => OrderDual.toDual (key a)

omit [LinearOrder κ] in
/-- The order of the list. -/
def unordered : Sorter fun _ _ : α => False where
  sort l := l
  perm l := .refl l
  sorted _ := List.pairwise_of_forall fun _ _ => not_false

end Sorter

/-! ### Lists that begin with the elements of a kind -/

section Prefix
variable {l : List α} {p : α → Bool}

/-- The elements of a kind come first, so their number says where they end. -/
theorem lt_countP_iff (h : l.Pairwise fun a b => p b → p a) {i : ℕ} {a : α} (ha : l[i]? = some a) :
    i < l.countP p ↔ p a := by
  induction l generalizing i with
  | nil => cases ha
  | cons b l ih =>
      obtain ⟨hb, hl⟩ := List.pairwise_cons.mp h
      cases i with
      | zero =>
          obtain rfl : b = a := Option.some.inj ha
          rw [List.countP_pos_iff]
          refine ⟨?_, fun hp => ⟨b, List.mem_cons_self, hp⟩⟩
          rintro ⟨c, hc, hp⟩
          rcases List.mem_cons.mp hc with rfl | hc
          · exact hp
          · exact hb c hc hp
      | succ i =>
          have ha : l[i]? = some a := ha
          by_cases hp : p b = true
          · rw [List.countP_cons_of_pos hp, Nat.succ_lt_succ_iff]
            exact ih hl ha
          · have hnone : ∀ c ∈ l, ¬ p c := fun c hc hpc => hp (hb c hc hpc)
            rw [List.countP_cons_of_neg hp, List.countP_eq_zero.mpr hnone]
            exact iff_of_false (Nat.not_lt_zero _) (hnone a (List.mem_of_getElem? ha))

theorem take_countP (h : l.Pairwise fun a b => p b → p a) : l.take (l.countP p) = l.filter p := by
  induction l with
  | nil => rfl
  | cons b l ih =>
      obtain ⟨hb, hl⟩ := List.pairwise_cons.mp h
      by_cases hp : p b = true
      · rw [List.countP_cons_of_pos hp, List.take_succ_cons, ih hl, List.filter_cons_of_pos hp]
      · have hnone : ∀ c ∈ l, ¬ p c := fun c hc hpc => hp (hb c hc hpc)
        rw [List.countP_cons_of_neg hp, List.countP_eq_zero.mpr hnone, List.take_zero,
          List.filter_cons_of_neg hp, List.filter_eq_nil_iff.mpr hnone]

end Prefix

/-! ### Pages -/

/-- A page of so many elements. -/
def page {before : α → α → Prop} (s : Sorter before) (l : List α) (size m : ℕ) : List α :=
  ((s.sort l).drop (m * size)).take size

/-- The first pages, each of the list as it is sorted for it. -/
def pages {before : α → α → Prop} (order : ℕ → Sorter before) (l : List α) (size n : ℕ) : List α :=
  (List.range n).flatMap fun m => page (order m) l size m

section Pages
variable {κ : Type*} [LinearOrder κ] {key : α → κ} {l : List α} {c size n : ℕ}

/-- Elements of one key are on both sides of a place in the sorted list. -/
def Crosses (key : α → κ) (l : List α) (c : ℕ) : Prop :=
  ∃ t, l.countP (key · > t) < c ∧ c < l.countP (key · ≥ t)

variable (s s' : Sorter fun a b => key a > key b) (order : ℕ → Sorter fun a b => key a > key b)

/-- The sorted list begins with the elements of large keys. -/
theorem Sorter.prefix_gt (t : κ) :
    (s.sort l).Pairwise fun a b => decide (key b > t) = true → decide (key a > t) = true :=
  (s.sorted l).imp fun hab hb =>
    decide_eq_true ((of_decide_eq_true hb).trans_le (not_lt.mp hab))

theorem Sorter.prefix_ge (t : κ) :
    (s.sort l).Pairwise fun a b => decide (key b ≥ t) = true → decide (key a ≥ t) = true :=
  (s.sorted l).imp fun hab hb => decide_eq_true ((of_decide_eq_true hb).trans (not_lt.mp hab))

/-- **Which keys cross a place** shows in the elements on its two sides. -/
theorem crosses_iff :
    Crosses key l (c + 1) ↔ ∃ a b, (s.sort l)[c]? = some a ∧ (s.sort l)[c + 1]? = some b ∧
      key a = key b := by
  constructor
  · rintro ⟨t, hlow, hhigh⟩
    rw [← (s.perm l).countP_eq] at hlow hhigh
    have hlen : c + 1 < (s.sort l).length := hhigh.trans_le List.countP_le_length
    have ha : (s.sort l)[c]? = some (s.sort l)[c] :=
      List.getElem?_eq_getElem ((Nat.lt_succ_self c).trans hlen)
    have hb : (s.sort l)[c + 1]? = some (s.sort l)[c + 1] := List.getElem?_eq_getElem hlen
    have hle : ¬ key (s.sort l)[c] > t := fun hgt =>
      absurd ((lt_countP_iff (s.prefix_gt t) ha).mpr (decide_eq_true hgt)) (by omega)
    have hge : key (s.sort l)[c + 1] ≥ t :=
      of_decide_eq_true ((lt_countP_iff (s.prefix_ge t) hb).mp hhigh)
    have hsorted : ¬ key (s.sort l)[c + 1] > key (s.sort l)[c] :=
      List.pairwise_iff_getElem.mp (s.sorted l) c (c + 1) _ hlen (Nat.lt_succ_self c)
    exact ⟨_, _, ha, hb, le_antisymm ((not_lt.mp hle).trans hge) (not_lt.mp hsorted)⟩
  · rintro ⟨a, b, ha, hb, hkey⟩
    refine ⟨key a, ?_, ?_⟩
    · rw [← (s.perm l).countP_eq]
      have hnot := (lt_countP_iff (s.prefix_gt (key a)) ha).not.mpr (by simp)
      omega
    · rw [← (s.perm l).countP_eq]
      exact (lt_countP_iff (s.prefix_ge (key a)) hb).mpr (by simp [hkey])

/-- Keys that are all different do not cross a place. -/
theorem not_crosses_of_nodup (h : (l.map key).Nodup) (c : ℕ) : ¬ Crosses key l c := by
  rintro ⟨t, hlow, hhigh⟩
  have hsplit : l.countP (key · ≥ t) = l.countP (key · > t) + l.countP (key · = t) := by
    clear h hlow hhigh
    induction l with
    | nil => rfl
    | cons a l ih =>
        rw [List.countP_cons, List.countP_cons, List.countP_cons, ih]
        rcases lt_trichotomy t (key a) with hlt | rfl | hgt
        · simp [hlt, hlt.le, hlt.ne']
          omega
        · simp
          omega
        · simp [hgt.le, hgt.ne, hgt.not_ge]
  have hone : l.countP (key · = t) ≤ 1 := by
    have hcount := List.nodup_iff_count_le_one.mp h t
    rw [List.count, List.countP_map] at hcount
    refine le_trans (List.countP_mono_left fun a _ ha => ?_) hcount
    simpa using ha
  omega

/-- The keys come in one order, however the elements are sorted. -/
theorem map_key_sort : (s.sort l).map key = (s'.sort l).map key := by
  have hperm : ((s.sort l).map key).Perm ((s'.sort l).map key) :=
    ((s.perm l).trans (s'.perm l).symm).map key
  have hsorted : ∀ s : Sorter fun a b => key a > key b,
      ((s.sort l).map key).Pairwise fun x y => y ≤ x :=
    fun s => List.pairwise_map.mpr ((s.sorted l).imp not_lt.mp)
  exact hperm.eq_of_pairwise (fun _ _ _ _ hxy hyx => le_antisymm hyx hxy) (hsorted s) (hsorted s')

/-- Where no key crosses, the same elements come first in any order. -/
theorem take_perm (h : ¬ Crosses key l c) : ((s.sort l).take c).Perm ((s'.sort l).take c) := by
  rcases lt_or_ge c (s.sort l).length with hc | hc
  · have ha : (s.sort l)[c]? = some (s.sort l)[c] := List.getElem?_eq_getElem hc
    have hcount : (s.sort l).countP (key · > key (s.sort l)[c]) = c := by
      have hge := (lt_countP_iff (s.prefix_ge (key (s.sort l)[c])) ha).mpr (by simp)
      have hgt := (lt_countP_iff (s.prefix_gt (key (s.sort l)[c])) ha).not.mpr (by simp)
      refine le_antisymm (not_lt.mp hgt) (not_lt.mp fun hlt => h ⟨key (s.sort l)[c], ?_, ?_⟩)
      · rwa [← (s.perm l).countP_eq]
      · rwa [← (s.perm l).countP_eq]
    have htake : ∀ s₁ : Sorter fun a b => key a > key b,
        (s₁.sort l).take c = (s₁.sort l).filter (key · > key (s.sort l)[c]) := by
      intro s₁
      have hcount₁ : (s₁.sort l).countP (key · > key (s.sort l)[c]) = c :=
        ((s₁.perm l).trans (s.perm l).symm).countP_eq _ ▸ hcount
      rw [← take_countP (s₁.prefix_gt _), hcount₁]
    rw [htake s, htake s']
    exact ((s.perm l).trans (s'.perm l).symm).filter _
  · have hlen : (s'.sort l).length = (s.sort l).length :=
      ((s'.perm l).trans (s.perm l).symm).length_eq
    rw [List.take_of_length_le hc, List.take_of_length_le (hlen ▸ hc)]
    exact (s.perm l).trans (s'.perm l).symm

theorem pages_succ {before : α → α → Prop} (order : ℕ → Sorter before) (l : List α) (size n : ℕ) :
    pages order l size (n + 1) = pages order l size n ++ page (order n) l size n := by
  rw [pages, List.range_succ, List.flatMap_append, List.flatMap_singleton]
  rfl

/-- What comes first and the next page make up what comes first. -/
theorem take_append_page {before : α → α → Prop} (s : Sorter before) (l : List α) (size n : ℕ) :
    (s.sort l).take (n * size) ++ page s l size n = (s.sort l).take ((n + 1) * size) := by
  rw [page, Nat.succ_mul, List.take_add]

theorem pages_const {before : α → α → Prop} (s : Sorter before) (l : List α) (size n : ℕ) :
    pages (fun _ => s) l size n = (s.sort l).take (n * size) := by
  induction n with
  | zero =>
      rw [Nat.zero_mul, List.take_zero]
      rfl
  | succ n ih => rw [pages_succ, ih, take_append_page]

theorem map_key_page (m : ℕ) : (page s l size m).map key = (page s' l size m).map key := by
  rw [page, page, List.map_take, List.map_drop, map_key_sort s s', ← List.map_drop, ← List.map_take]

/-- The keys on the pages, which do not depend on the sorting. -/
theorem map_key_pages (n : ℕ) :
    (pages order l size n).map key = ((s.sort l).take (n * size)).map key := by
  induction n with
  | zero =>
      rw [Nat.zero_mul, List.take_zero]
      rfl
  | succ n ih =>
      rw [pages_succ, List.map_append, ih, ← take_append_page, List.map_append, map_key_page s]

/-- The pages are in order one after the other. -/
theorem sorted_pages (n : ℕ) : (pages order l size n).Pairwise fun a b => key b ≤ key a := by
  have hkeys : ((pages order l size n).map key).Pairwise fun x y => y ≤ x := by
    rw [map_key_pages (order 0) order, List.pairwise_map]
    exact ((order 0).sorted l).sublist (List.take_sublist _ _) |>.imp not_lt.mp
  exact List.pairwise_map.mp hkeys

/-- **A step**: a page that no key crosses into has the elements it has in any order. -/
theorem pages_perm_take (h : ∀ m, ¬ Crosses key l (m * size)) (n : ℕ) :
    (pages order l size n).Perm ((s.sort l).take (n * size)) := by
  induction n with
  | zero =>
      rw [Nat.zero_mul, List.take_zero]
      exact .refl []
  | succ n ih =>
      have hbefore := ih.trans (take_perm s (order n) (h n))
      rw [pages_succ]
      refine (hbefore.append_right _).trans ?_
      rw [take_append_page]
      exact take_perm (order n) s (h (n + 1))

/-- Sorting that puts one list in an order of its own. -/
noncomputable def Sorter.override {before : α → α → Prop} (s : Sorter before) {l₀ l₁ : List α}
    (hperm : l₁.Perm l₀) (hsorted : l₁.Pairwise fun a b => ¬ before b a) : Sorter before :=
  open Classical in
  { sort := fun l => if l = l₀ then l₁ else s.sort l
    perm := fun l => by
      split
      · rename_i h
        exact h ▸ hperm
      · exact s.perm l
    sorted := fun l => by
      split
      · exact hsorted
      · exact s.sorted l }

theorem Sorter.sort_override {before : α → α → Prop} (s : Sorter before) {l₀ l₁ : List α}
    (hperm : l₁.Perm l₀) (hsorted : l₁.Pairwise fun a b => ¬ before b a) :
    (s.override hperm hsorted).sort l₀ = l₁ := if_pos rfl

/-- Neighbours with one key may come the other way round. -/
theorem exists_exchanged (h : Crosses key l (c + 1)) :
    ∃ (a : α) (s' : Sorter fun a b => key a > key b), (s.sort l)[c]? = some a ∧
      (s'.sort l)[c + 1]? = some a := by
  obtain ⟨a, b, ha, hb, hkey⟩ := (crosses_iff s).mp h
  have hlen : c + 1 < (s.sort l).length := (List.getElem?_eq_some_iff.mp hb).1
  have hsplit : s.sort l = (s.sort l).take c ++ a :: b :: (s.sort l).drop (c + 2) := by
    have hdrop : (s.sort l).drop c = a :: b :: (s.sort l).drop (c + 2) := by
      rw [List.drop_eq_getElem_cons ((Nat.lt_succ_self c).trans hlen),
        List.drop_eq_getElem_cons hlen]
      rw [List.getElem?_eq_getElem ((Nat.lt_succ_self c).trans hlen), Option.some_inj] at ha
      rw [List.getElem?_eq_getElem hlen, Option.some_inj] at hb
      rw [ha, hb]
    rw [← hdrop, List.take_append_drop]
  have hlength : ((s.sort l).take c).length = c := by
    rw [List.length_take]
    omega
  have hperm : ((s.sort l).take c ++ b :: a :: (s.sort l).drop (c + 2)).Perm l := by
    refine .trans (List.Perm.append_left _ (.swap a b _)) ?_
    rw [← hsplit]
    exact s.perm l
  have hsorted : ((s.sort l).take c ++ b :: a :: (s.sort l).drop (c + 2)).Pairwise
      fun a b => ¬ key b > key a := by
    have hbefore := s.sorted l
    rw [hsplit] at hbefore
    simp only [List.pairwise_append, List.pairwise_cons, List.mem_cons, forall_eq_or_imp]
      at hbefore ⊢
    obtain ⟨hfirst, ⟨⟨-, harest⟩, hbrest, hrest⟩, hcross⟩ := hbefore
    refine ⟨hfirst, ⟨⟨by rw [hkey]; exact lt_irrefl _, hbrest⟩, harest, hrest⟩, fun x hx => ?_⟩
    obtain ⟨hxa, hxb, hxrest⟩ := hcross x hx
    exact ⟨hxb, hxa, hxrest⟩
  refine ⟨a, s.override hperm hsorted, ha, ?_⟩
  rw [Sorter.sort_override, List.getElem?_append_right (by omega), hlength]
  have hone : c + 1 - c = 1 := by omega
  rw [hone]
  rfl

theorem mem_page {before : α → α → Prop} {s : Sorter before} {i m : ℕ} {a : α}
    (ha : (s.sort l)[i]? = some a) (hlow : m * size ≤ i) (hhigh : i < (m + 1) * size) :
    a ∈ page s l size m := by
  rw [Nat.succ_mul] at hhigh
  refine List.mem_of_getElem? (i := i - m * size) ?_
  rw [page, List.getElem?_take_of_lt (by omega), List.getElem?_drop, Nat.add_sub_cancel' hlow, ha]

/-- **Pages that make up the list**, each element once: so it is exactly when no key crosses from
one page to the next. -/
theorem pages_perm_iff (hsize : 1 ≤ size) (hnodup : l.Nodup) :
    (∀ order : ℕ → Sorter fun a b => key a > key b, ∀ n, l.length ≤ n * size →
      (pages order l size n).Perm l) ↔ ∀ m, ¬ Crosses key l (m * size) := by
  constructor
  · intro h m hcross
    obtain ⟨c, hc⟩ : ∃ c, m * size = c + 1 := by
      obtain ⟨t, hlow, -⟩ := hcross
      exact ⟨m * size - 1, by omega⟩
    obtain ⟨m, rfl⟩ : ∃ m', m = m' + 1 := by
      refine Nat.exists_eq_succ_of_ne_zero ?_
      rintro rfl
      omega
    rw [hc] at hcross
    obtain ⟨a, s', ha, ha'⟩ := exists_exchanged (Sorter.byKeyDesc key) hcross
    have hlow : m * size ≤ c := by
      rw [Nat.succ_mul] at hc
      omega
    have hnext : c + 1 < (m + 2) * size := by
      rw [Nat.succ_mul (m + 1), hc]
      omega
    -- The last element of one page is the first of the next.
    have hfirst : a ∈ page (Sorter.byKeyDesc key) l size m := mem_page ha hlow (by omega)
    have hsecond : a ∈ page s' l size (m + 1) := mem_page ha' hc.le hnext
    have hn : l.length ≤ (l.length + m + 2) * size := by
      refine le_trans ?_ (Nat.le_mul_of_pos_right _ hsize)
      omega
    have hpages := h (fun i => if i = m + 1 then s' else Sorter.byKeyDesc key) _ hn
    have hdisjoint := (List.nodup_flatMap.mp (hpages.nodup_iff.mpr hnodup)).2
    have happart := List.pairwise_iff_getElem.mp hdisjoint m (m + 1)
      (by rw [List.length_range]; omega) (by rw [List.length_range]; omega) m.lt_succ_self
    simp only [Function.onFun, List.getElem_range, if_pos, if_neg m.lt_succ_self.ne] at happart
    exact happart hfirst hsecond
  · intro h order n hn
    have hall : ((order 0).sort l).take (n * size) = (order 0).sort l :=
      List.take_of_length_le (((order 0).perm l).length_eq ▸ hn)
    exact ((pages_perm_take (order 0) order h n).trans (.of_eq hall)).trans ((order 0).perm l)

end Pages

end Support
