import Mathlib.Data.List.Infix
import Mathlib.Data.List.TakeDrop
import Mathlib.Tactic.TypeStar

/-!
# Support — Greedy

Greedy selection: the elements of a list one by one, each taken unless it conflicts with one taken
before.

* `greedyFrom_pairwise`, `greedyFrom_clear`: what is taken does not conflict.
* `passed_covered`: what is passed over conflicts with something taken before it.
* `greedyFrom_eq_self`: without conflicts everything is taken.
* `greedyFrom_filter`: where only elements of one kind conflict, the selection among a kind is the
  selection of that kind.
* `foldl_strike`: the selection by flags, each element taken striking out the later ones it
  conflicts with.
-/

namespace Support

variable {α β : Type*}

/-- What is taken of a list, after some elements were taken before. -/
def greedyFrom (conflict : α → α → Bool) : List α → List α → List α
  | _, [] => []
  | taken, a :: l =>
      if taken.any (conflict · a) then greedyFrom conflict taken l
      else a :: greedyFrom conflict (taken ++ [a]) l

/-- The flags of the elements passed over. -/
def passedFlags (conflict : α → α → Bool) : List α → List α → List Bool
  | _, [] => []
  | taken, a :: l =>
      if taken.any (conflict · a) then true :: passedFlags conflict taken l
      else false :: passedFlags conflict (taken ++ [a]) l

/-- The elements passed over. -/
def passedFrom (conflict : α → α → Bool) (taken l : List α) : List α :=
  ((l.zip (passedFlags conflict taken l)).filter (·.2)).map (·.1)

variable {conflict : α → α → Bool} {taken l : List α}

/-! ### What is taken -/

theorem greedyFrom_of_conflict {a : α} (h : taken.any (conflict · a) = true) :
    greedyFrom conflict taken (a :: l) = greedyFrom conflict taken l := if_pos h

theorem greedyFrom_of_clear {a : α} (h : ¬ taken.any (conflict · a) = true) :
    greedyFrom conflict taken (a :: l) = a :: greedyFrom conflict (taken ++ [a]) l := if_neg h

theorem greedyFrom_sublist (taken l : List α) : (greedyFrom conflict taken l).Sublist l := by
  induction l generalizing taken with
  | nil => exact .slnil
  | cons a l ih =>
      by_cases h : taken.any (conflict · a) = true
      · rw [greedyFrom_of_conflict h]
        exact (ih taken).cons a
      · rw [greedyFrom_of_clear h]
        exact (ih _).cons_cons a

/-- Nothing taken conflicts with what was taken before. -/
theorem greedyFrom_clear {t a : α} (ht : t ∈ taken) (ha : a ∈ greedyFrom conflict taken l) :
    conflict t a = false := by
  induction l generalizing taken with
  | nil => cases ha
  | cons b l ih =>
      by_cases h : taken.any (conflict · b) = true
      · rw [greedyFrom_of_conflict h] at ha
        exact ih ht ha
      · rw [greedyFrom_of_clear h] at ha
        rcases List.mem_cons.mp ha with rfl | ha
        · by_contra hc
          exact h (List.any_eq_true.mpr ⟨t, ht, by simpa using hc⟩)
        · exact ih (List.mem_append_left _ ht) ha

/-- **Nothing taken conflicts with anything taken later.** -/
theorem greedyFrom_pairwise (taken l : List α) :
    (greedyFrom conflict taken l).Pairwise fun a b => conflict a b = false := by
  induction l generalizing taken with
  | nil => exact .nil
  | cons a l ih =>
      by_cases h : taken.any (conflict · a) = true
      · rw [greedyFrom_of_conflict h]
        exact ih taken
      · rw [greedyFrom_of_clear h]
        refine List.pairwise_cons.mpr ⟨fun b hb => ?_, ih _⟩
        exact greedyFrom_clear (List.mem_append_right _ List.mem_cons_self) hb

/-- Without conflicts everything is taken. -/
theorem greedyFrom_eq_self (htaken : ∀ t ∈ taken, ∀ a ∈ l, conflict t a = false)
    (hl : l.Pairwise fun a b => conflict a b = false) : greedyFrom conflict taken l = l := by
  induction l generalizing taken with
  | nil => rfl
  | cons a l ih =>
      obtain ⟨ha, hrest⟩ := List.pairwise_cons.mp hl
      have hclear : ¬ taken.any (conflict · a) = true := by
        intro h
        obtain ⟨t, ht, hc⟩ := List.any_eq_true.mp h
        exact Bool.false_ne_true ((htaken t ht a List.mem_cons_self).symm.trans hc)
      rw [greedyFrom_of_clear hclear, ih (fun t ht b hb => ?_) hrest]
      rcases List.mem_append.mp ht with ht | ht
      · exact htaken t ht b (List.mem_cons_of_mem _ hb)
      · exact List.mem_singleton.mp ht ▸ ha b hb

/-- **One kind alone**: where an element conflicts only with elements of its kind. -/
theorem greedyFrom_filter (kind : α → Bool)
    (hkind : ∀ a b, conflict a b = true → kind a = kind b) (taken l : List α) :
    (greedyFrom conflict taken l).filter kind =
      greedyFrom conflict (taken.filter kind) (l.filter kind) := by
  induction l generalizing taken with
  | nil => rfl
  | cons a l ih =>
      by_cases ha : kind a = true
      · -- what conflicts with `a` is of its kind
        have hany : (taken.filter kind).any (conflict · a) = taken.any (conflict · a) := by
          rw [List.any_filter]
          refine congrArg taken.any (funext fun t => ?_)
          cases hc : conflict t a with
          | false => simp
          | true => simp [hkind t a hc, ha]
        rw [List.filter_cons_of_pos ha]
        by_cases h : taken.any (conflict · a) = true
        · rw [greedyFrom_of_conflict h, greedyFrom_of_conflict (hany.trans h), ih]
        · rw [greedyFrom_of_clear h, greedyFrom_of_clear (hany ▸ h), List.filter_cons_of_pos ha,
            ih, List.filter_append, List.filter_cons_of_pos ha, List.filter_nil]
      · rw [List.filter_cons_of_neg ha]
        by_cases h : taken.any (conflict · a) = true
        · rw [greedyFrom_of_conflict h, ih]
        · rw [greedyFrom_of_clear h, List.filter_cons_of_neg ha, ih, List.filter_append,
            List.filter_cons_of_neg ha, List.filter_nil, List.append_nil]

theorem greedyFrom_congr {conflict' : α → α → Bool}
    (htaken : ∀ t ∈ taken, ∀ a ∈ l, conflict t a = conflict' t a)
    (hl : ∀ a ∈ l, ∀ b ∈ l, conflict a b = conflict' a b) :
    greedyFrom conflict taken l = greedyFrom conflict' taken l := by
  induction l generalizing taken with
  | nil => rfl
  | cons a l ih =>
      have hany : taken.any (conflict · a) = taken.any (conflict' · a) := by
        rw [Bool.eq_iff_iff, List.any_eq_true, List.any_eq_true]
        refine exists_congr fun t => and_congr_right fun ht => ?_
        rw [htaken t ht a List.mem_cons_self]
      have hrest : ∀ b ∈ l, ∀ c ∈ l, conflict b c = conflict' b c := fun b hb c hc =>
        hl b (List.mem_cons_of_mem _ hb) c (List.mem_cons_of_mem _ hc)
      rw [greedyFrom, greedyFrom, hany, ih (fun t ht b hb =>
        htaken t ht b (List.mem_cons_of_mem _ hb)) hrest]
      split
      · rfl
      · rw [ih (fun t ht b hb => ?_) hrest]
        rcases List.mem_append.mp ht with ht | ht
        · exact htaken t ht b (List.mem_cons_of_mem _ hb)
        · obtain rfl := List.mem_singleton.mp ht
          exact hl t List.mem_cons_self b (List.mem_cons_of_mem _ hb)

theorem greedyFrom_map (f : β → α) (taken l : List β) :
    greedyFrom conflict (taken.map f) (l.map f) =
      (greedyFrom (fun a b => conflict (f a) (f b)) taken l).map f := by
  induction l generalizing taken with
  | nil => rfl
  | cons a l ih =>
      have hany : (taken.map f).any (conflict · (f a)) =
          taken.any fun t => conflict (f t) (f a) := List.any_map
      rw [List.map_cons]
      by_cases h : (taken.any fun t => conflict (f t) (f a)) = true
      · rw [greedyFrom_of_conflict (hany.trans h), ih]
        exact congrArg _ (greedyFrom_of_conflict h).symm
      · rw [greedyFrom_of_clear (hany ▸ h)]
        refine Eq.trans ?_ (congrArg (List.map f) (greedyFrom_of_clear h).symm)
        rw [List.map_cons, ← ih, List.map_append, List.map_singleton]

/-! ### What is passed over -/

@[simp] theorem length_passedFlags (taken l : List α) :
    (passedFlags conflict taken l).length = l.length := by
  induction l generalizing taken with
  | nil => rfl
  | cons a l ih =>
      rw [passedFlags]
      split
      · rw [List.length_cons, ih, List.length_cons]
      · rw [List.length_cons, ih, List.length_cons]

/-- What the flags leave is what is taken. -/
theorem filter_passedFlags (taken l : List α) :
    ((l.zip (passedFlags conflict taken l)).filter (!·.2)).map (·.1) =
      greedyFrom conflict taken l := by
  induction l generalizing taken with
  | nil => rfl
  | cons a l ih =>
      rw [passedFlags, greedyFrom]
      split
      · rw [List.zip_cons_cons, List.filter_cons_of_neg (by simp), ih]
      · rw [List.zip_cons_cons, List.filter_cons_of_pos (by simp), List.map_cons, ih]

/-- **Every element is taken or passed over.** -/
theorem greedyFrom_append_passedFrom (taken l : List α) :
    (greedyFrom conflict taken l ++ passedFrom conflict taken l).Perm l := by
  have hzip : (l.zip (passedFlags conflict taken l)).map (·.1) = l :=
    List.map_fst_zip (by rw [length_passedFlags])
  rw [← filter_passedFlags, passedFrom, ← List.map_append]
  refine (List.Perm.map _ ?_).trans (List.Perm.of_eq hzip)
  have hsplit := List.filter_append_perm (fun p : α × Bool => !p.2)
    (l.zip (passedFlags conflict taken l))
  simpa only [Bool.not_not] using hsplit

/-- **What is passed over** conflicts with something taken, of before or from ahead of it. -/
theorem passed_covered {R : α → α → Prop} (hl : l.Pairwise R) {a : α}
    (ha : a ∈ passedFrom conflict taken l) :
    (∃ t ∈ taken, conflict t a = true) ∨
      ∃ k ∈ greedyFrom conflict taken l, R k a ∧ conflict k a = true := by
  induction l generalizing taken with
  | nil => cases ha
  | cons b l ih =>
      obtain ⟨hb, hrest⟩ := List.pairwise_cons.mp hl
      by_cases h : taken.any (conflict · b) = true
      · rw [passedFrom, passedFlags, if_pos h, List.zip_cons_cons,
          List.filter_cons_of_pos rfl, List.map_cons] at ha
        rw [greedyFrom_of_conflict h]
        rcases List.mem_cons.mp ha with rfl | ha
        · exact .inl (List.any_eq_true.mp h)
        · exact ih hrest ha
      · rw [passedFrom, passedFlags, if_neg h, List.zip_cons_cons,
          List.filter_cons_of_neg (by simp)] at ha
        rw [greedyFrom_of_clear h]
        rcases ih hrest ha with ⟨t, ht, hc⟩ | ⟨k, hk, hR, hc⟩
        · rcases List.mem_append.mp ht with ht | ht
          · exact .inl ⟨t, ht, hc⟩
          · obtain rfl := List.mem_singleton.mp ht
            have hmem : a ∈ l := by
              obtain ⟨p, hp, rfl⟩ := List.mem_map.mp ha
              exact (List.of_mem_zip (List.mem_filter.mp hp).1).1
            exact .inr ⟨t, List.mem_cons_self, hb a hmem, hc⟩
        · exact .inr ⟨k, List.mem_cons_of_mem _ hk, hR, hc⟩

/-! ### The loop over flags -/

/-- One turn: an element that is not struck out strikes out the later ones it conflicts with. -/
def strike (conflict : α → α → Bool) (l : List α) (flags : List Bool) (i : ℕ) : List Bool :=
  if flags.getD i false then flags
  else
    match l[i]? with
    | none => flags
    | some first =>
        (l.zip flags).mapIdx fun j (later, flag) => flag || (decide (i < j) && conflict first later)

/-- The same, keeping the element. -/
def strikeKeeping (conflict : α → α → Bool) (l : List α) (acc : List α × List Bool) (i : ℕ) :
    List α × List Bool :=
  (if acc.2.getD i false then acc.1 else acc.1 ++ l[i]?.toList, strike conflict l acc.2 i)

/-- What the elements taken strike out of the rest. -/
def struck (conflict : α → α → Bool) (taken l : List α) : List Bool :=
  l.map fun a => taken.any (conflict · a)

theorem struck_getD (taken pre : List α) (a : α) (post : List α) {done : List Bool}
    (hdone : done.length = pre.length) :
    (done ++ struck conflict taken (a :: post)).getD pre.length false =
      taken.any (conflict · a) := by
  rw [List.getD_eq_getElem?_getD, List.getElem?_append_right hdone.le, hdone, Nat.sub_self]
  rfl

theorem getElem?_append_cons (pre : List α) (a : α) (post : List α) :
    (pre ++ a :: post)[pre.length]? = some a := by
  rw [List.getElem?_append_right le_rfl, Nat.sub_self]
  rfl

theorem strike_turn (taken pre : List α) (a : α) (post : List α) {done : List Bool}
    (hdone : done.length = pre.length) :
    strike conflict (pre ++ a :: post) (done ++ struck conflict taken (a :: post)) pre.length =
      if taken.any (conflict · a) then done ++ true :: struck conflict taken post
      else done ++ false :: struck conflict (taken ++ [a]) post := by
  rw [strike, struck_getD taken pre a post hdone, getElem?_append_cons]
  split
  · next h => rw [struck, List.map_cons, h, struck]
  · next h =>
      have hclear : taken.any (conflict · a) = false := by simpa using h
      dsimp only
      rw [List.zip_append hdone.symm, List.mapIdx_append]
      -- the elements up to this one keep their flags
      have hpre : ((pre.zip done).mapIdx fun j p =>
          p.2 || (decide (pre.length < j) && conflict a p.1)) = done := by
        refine List.ext_getElem (by simp [hdone]) fun j h₁ h₂ => ?_
        have hj : ¬ pre.length < j := by omega
        simp [hj]
      have hpost : ((a :: post).zip (struck conflict taken (a :: post))).mapIdx
          (fun j p => p.2 ||
            (decide (pre.length < j + (pre.zip done).length) && conflict a p.1)) =
          false :: struck conflict (taken ++ [a]) post := by
        refine List.ext_getElem (by simp [struck]) fun j h₁ h₂ => ?_
        cases j with
        | zero => simp [struck, hdone, hclear]
        | succ j => simp [struck, hdone, List.any_append]
      rw [hpre, hpost]

theorem foldl_strikeKeeping_from (taken pre post kept : List α) (done : List Bool)
    (hdone : done.length = pre.length) :
    (List.range' pre.length post.length).foldl (strikeKeeping conflict (pre ++ post))
        (kept, done ++ struck conflict taken post) =
      (kept ++ greedyFrom conflict taken post, done ++ passedFlags conflict taken post) := by
  induction post generalizing taken pre kept done with
  | nil => simp [greedyFrom, passedFlags, struck]
  | cons a post ih =>
      have hlist : pre ++ a :: post = (pre ++ [a]) ++ post := by
        rw [List.append_assoc]
        rfl
      rw [List.length_cons, List.range'_succ, List.foldl_cons, strikeKeeping,
        strike_turn taken pre a post hdone, struck_getD taken pre a post hdone,
        getElem?_append_cons, hlist, passedFlags, greedyFrom]
      split
      · have hrest := ih taken (pre ++ [a]) kept (done ++ [true]) (by simp [hdone])
        simpa using hrest
      · have hrest := ih (taken ++ [a]) (pre ++ [a]) (kept ++ [a]) (done ++ [false])
          (by simp [hdone])
        simpa using hrest

/-- **The loop that keeps what it does not find struck out.** -/
theorem foldl_strikeKeeping (l : List α) :
    (List.range l.length).foldl (strikeKeeping conflict l) ([], List.replicate l.length false) =
      (greedyFrom conflict [] l, passedFlags conflict [] l) := by
  have hstart : List.replicate l.length false = struck conflict [] l := by
    simp [struck, List.map_const']
  rw [hstart, List.range_eq_range']
  exact foldl_strikeKeeping_from [] [] l [] [] rfl

/-- **The loop over flags** leaves the elements passed over struck out. -/
theorem foldl_strike (l : List α) :
    (List.range l.length).foldl (strike conflict l) (List.replicate l.length false) =
      passedFlags conflict [] l := by
  have hloop := congrArg Prod.snd (@foldl_strikeKeeping _ conflict l)
  have hsnd : ∀ acc i, strike conflict l acc.2 i = (strikeKeeping conflict l acc i).2 :=
    fun _ _ => rfl
  exact (List.foldl_hom Prod.snd hsnd).trans hloop

end Support
