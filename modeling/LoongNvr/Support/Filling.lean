import Mathlib.Data.List.AList
import Mathlib.Data.Int.Order.Basic

/-!
# Support — Filling

The free places of a list, filled from the front with the elements of another.

* `fill`: the loop.
* `rank`: how many free places come before a place.
* `getElem_fill`: a free place holds the element of its rank, another what it held.
* `exists_rank_eq`: the ranks below that of a place are those of the free places before it.
* `scatter`: a list with what a map has for its places written over it.
-/

namespace Support

variable {α : Type*} (free : α → Bool)

/-- The free places take the elements in turn, as far as these go. -/
def fill : List α → List α → List α
  | [], _ => []
  | places, [] => places
  | place :: places, a :: as =>
      if free place then a :: fill places as else place :: fill places (a :: as)

/-- How many of the places before this one are free. -/
def rank (places : List α) (i : ℕ) : ℕ := (places.take i).countP free

variable {free} {places as : List α} {i j : ℕ}

@[simp] theorem length_fill (places as : List α) :
    (fill free places as).length = places.length := by
  induction places generalizing as with
  | nil => rfl
  | cons place places ih =>
      cases as with
      | nil => rfl
      | cons a as =>
          rw [fill]
          split
          · rw [List.length_cons, ih, List.length_cons]
          · rw [List.length_cons, ih, List.length_cons]

theorem rank_cons_succ (place : α) (places : List α) (i : ℕ) :
    rank free (place :: places) (i + 1) =
      rank free places i + if free place then 1 else 0 := by
  rw [rank, List.take_succ_cons, List.countP_cons]
  rfl

/-- **What a place holds**: if it is free, the element of its rank where there is one. -/
theorem getElem?_fill (places as : List α) (i : ℕ) :
    (fill free places as)[i]? =
      places[i]?.map fun place =>
        if free place then (as[rank free places i]?).getD place else place := by
  induction places generalizing as i with
  | nil => rfl
  | cons place places ih =>
      cases as with
      | nil => simp [fill]
      | cons a as =>
          rw [fill]
          cases i with
          | zero =>
              by_cases hfree : free place = true
              · simp [hfree, rank]
              · simp [hfree]
          | succ i =>
              rw [rank_cons_succ]
              by_cases hfree : free place = true
              · simp [hfree, ih]
              · simp [hfree, ih]

theorem rank_succ_of_free {place : α} (hplace : places[i]? = some place) (hfree : free place) :
    rank free places (i + 1) = rank free places i + 1 := by
  rw [rank, List.take_add_one, hplace, List.countP_append]
  simp [rank, hfree]

theorem rank_mono (places : List α) (h : i ≤ j) : rank free places i ≤ rank free places j :=
  (List.take_sublist_take_left h).countP_le

/-- A free place counts for the later ones. -/
theorem rank_lt_rank {place : α} (hplace : places[i]? = some place) (hfree : free place)
    (h : i < j) : rank free places i < rank free places j := by
  have hsucc := rank_succ_of_free hplace hfree
  have hmono : rank free places (i + 1) ≤ rank free places j := rank_mono places h
  omega

/-- Free places of one rank are one place. -/
theorem eq_of_rank_eq {a b : α} (ha : places[i]? = some a) (hb : places[j]? = some b)
    (hfreeA : free a) (hfreeB : free b) (h : rank free places i = rank free places j) : i = j := by
  rcases lt_trichotomy i j with hlt | rfl | hgt
  · exact absurd h (Nat.ne_of_lt (rank_lt_rank ha hfreeA hlt))
  · rfl
  · exact absurd h (Nat.ne_of_gt (rank_lt_rank hb hfreeB hgt))

/-- Each rank below that of a place is the rank of a free place before it. -/
theorem exists_rank_eq {k : ℕ} (h : k < rank free places i) :
    ∃ j place, j < i ∧ places[j]? = some place ∧ free place ∧ rank free places j = k := by
  induction i with
  | zero => exact absurd h (Nat.not_lt_zero k)
  | succ i ih =>
      by_cases hbefore : k < rank free places i
      · obtain ⟨j, place, hj, hplace⟩ := ih hbefore
        exact ⟨j, place, Nat.lt_succ_of_lt hj, hplace⟩
      · rcases hplace : places[i]? with _ | place
        · rw [rank, List.take_add_one, hplace] at h
          simp only [Option.toList_none, List.append_nil] at h
          exact absurd h hbefore
        · by_cases hfree : free place = true
          · refine ⟨i, place, i.lt_succ_self, hplace, hfree, ?_⟩
            rw [rank_succ_of_free hplace hfree] at h
            omega
          · rw [rank, List.take_add_one, hplace, List.countP_append] at h
            simp only [Option.toList_some, List.countP_singleton, hfree] at h
            exact absurd h hbefore

/-! ### Writing a map over a list -/

/-- `if (0 <= i && i < places.size()) places[i] = a;` -/
def writeAt (places : List α) (i : ℤ) (a : α) : List α :=
  if 0 ≤ i ∧ i < (places.length : ℤ) then places.set i.toNat a else places

/-- What is at a key is written to the place of that number, where there is one. -/
def scatter (m : AList fun _ : ℤ => α) (places : List α) : List α :=
  m.entries.foldl (fun places e => writeAt places e.1 e.2) places

@[simp] theorem length_writeAt (places : List α) (i : ℤ) (a : α) :
    (writeAt places i a).length = places.length := by
  unfold writeAt
  split
  · exact List.length_set
  · rfl

theorem getElem?_writeAt_self (places : List α) (i : ℕ) (a : α) :
    (writeAt places i a)[i]? = places[i]?.map fun _ => a := by
  unfold writeAt
  by_cases hi : i < places.length
  · rw [if_pos ⟨Int.natCast_nonneg i, Int.ofNat_lt.mpr hi⟩, Int.toNat_natCast,
      List.getElem?_set_self hi, List.getElem?_eq_getElem hi]
    rfl
  · have hout : ¬ ((0 : ℤ) ≤ i ∧ (i : ℤ) < (places.length : ℤ)) := fun h =>
      hi (Int.ofNat_lt.mp h.2)
    rw [if_neg hout, List.getElem?_eq_none (Nat.le_of_not_lt hi)]
    rfl

theorem getElem?_writeAt_ne (places : List α) {i : ℕ} {k : ℤ} (h : (i : ℤ) ≠ k) (a : α) :
    (writeAt places k a)[i]? = places[i]? := by
  unfold writeAt
  split
  · exact List.getElem?_set_ne (by omega)
  · rfl

/-- **What is written**: what the map has for a place. -/
theorem getElem?_scatter (m : AList fun _ : ℤ => α) (places : List α) (i : ℕ) :
    (scatter m places)[i]? = places[i]?.map fun place => (m.lookup (i : ℤ)).getD place := by
  have hwrites : ∀ (entries : List (Sigma fun _ : ℤ => α)) (places : List α),
      entries.NodupKeys →
      (entries.foldl (fun places e => writeAt places e.1 e.2) places)[i]? =
        places[i]?.map fun place => (entries.dlookup (i : ℤ)).getD place := by
    intro entries
    induction entries with
    | nil =>
        intro places _
        simp
    | cons e entries ih =>
        intro places hkeys
        obtain ⟨k, a⟩ := e
        obtain ⟨hnew, hrest⟩ := List.nodupKeys_cons.mp hkeys
        rw [List.foldl_cons, ih _ hrest]
        rcases eq_or_ne (i : ℤ) k with rfl | hne
        · have hnone : entries.dlookup (i : ℤ) = none := List.dlookup_eq_none.mpr hnew
          rw [hnone, List.dlookup_cons_eq, getElem?_writeAt_self, Option.map_map]
          rfl
        · rw [List.dlookup_cons_ne _ _ hne, getElem?_writeAt_ne _ hne]
  exact hwrites m.entries places m.nodupKeys

theorem length_scatter (m : AList fun _ : ℤ => α) (places : List α) :
    (scatter m places).length = places.length := by
  unfold scatter
  induction m.entries generalizing places with
  | nil => rfl
  | cons e entries ih => rw [List.foldl_cons, ih, length_writeAt]

end Support
