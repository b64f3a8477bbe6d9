import Mathlib.Data.List.Nodup
import Mathlib.Data.Int.Order.Basic

/-!
# Support — Keyed

A table with an `INTEGER PRIMARY KEY` that the program gives: rows in the order of their keys, one
for each.

* `put`, `remove`, `get`: `INSERT OR REPLACE`, `DELETE` and `SELECT` by the key.
* `get_put_self`, `get_put_of_ne`, `get_remove_self`, `get_remove_of_ne`, `get_modify`: what a
  statement does to each key.
* `mem_rows_iff`: the rows are the keys with what is there of them.
* `find?_key_eq_some_iff`: so it is in any list whose items have keys of their own.
-/

namespace Support

/-- **A key names one item.** -/
theorem find?_key_eq_some_iff {α κ : Type*} [DecidableEq κ] {key : α → κ} {as : List α}
    (hnodup : (as.map key).Nodup) {k : κ} {a : α} :
    as.find? (fun b => key b = k) = some a ↔ a ∈ as ∧ key a = k := by
  constructor
  · intro h
    exact ⟨List.mem_of_find?_eq_some h, by simpa using List.find?_some h⟩
  · rintro ⟨hmem, rfl⟩
    cases hfind : as.find? fun b => key b = key a with
    | none => exact absurd (List.find?_eq_none.mp hfind a hmem) (by simp)
    | some b =>
        have hkey : key b = key a := by simpa using List.find?_some hfind
        rw [List.inj_on_of_nodup_map hnodup (List.mem_of_find?_eq_some hfind) hmem hkey]

/-- Rows with their keys. -/
structure Keyed (ρ : Type*) where
  rows : List (ℤ × ρ)
  sorted : rows.Pairwise (·.1 < ·.1)

namespace Keyed

variable {ρ : Type*}

theorem sorted_nil : ([] : List (ℤ × ρ)).Pairwise (·.1 < ·.1) := .nil

/-- A new table. -/
def empty : Keyed ρ := ⟨[], sorted_nil⟩

/-- `INSERT OR REPLACE` -/
def put (t : Keyed ρ) (key : ℤ) (r : ρ) : Keyed ρ where
  rows := t.rows.filter (·.1 < key) ++ (key, r) :: t.rows.filter (key < ·.1)
  sorted := by
    have hbelow : ∀ a ∈ t.rows.filter (·.1 < key), a.1 < key := fun a ha => by
      simpa using (List.mem_filter.mp ha).2
    have habove : ∀ b ∈ t.rows.filter (key < ·.1), key < b.1 := fun b hb => by
      simpa using (List.mem_filter.mp hb).2
    refine List.pairwise_append.mpr ⟨t.sorted.filter _,
      List.pairwise_cons.mpr ⟨habove, t.sorted.filter _⟩, fun a ha b hb => ?_⟩
    rcases List.mem_cons.mp hb with rfl | hb
    · exact hbelow a ha
    · exact lt_trans (hbelow a ha) (habove b hb)

/-- `DELETE … WHERE key = ?` -/
def remove (t : Keyed ρ) (key : ℤ) : Keyed ρ where
  rows := t.rows.filter (·.1 ≠ key)
  sorted := t.sorted.filter _

/-- `SELECT … WHERE key = ?` -/
def get (t : Keyed ρ) (key : ℤ) : Option ρ := (t.rows.find? (·.1 = key)).map (·.2)

/-- The row under the key, where there is one, is changed. -/
def modify (t : Keyed ρ) (key : ℤ) (f : ρ → ρ) : Keyed ρ :=
  match t.get key with
  | none => t
  | some r => t.put key (f r)

theorem nodup_keys (t : Keyed ρ) : (t.rows.map (·.1)).Nodup :=
  List.pairwise_map.mpr (t.sorted.imp ne_of_lt)

/-- **A key names one row.** -/
theorem mem_rows_iff (t : Keyed ρ) {key : ℤ} {r : ρ} : (key, r) ∈ t.rows ↔ t.get key = some r := by
  have hfind : ∀ row, t.rows.find? (·.1 = key) = some row ↔ row ∈ t.rows ∧ row.1 = key :=
    fun row => find?_key_eq_some_iff t.nodup_keys
  simp only [get, Option.map_eq_some_iff, hfind]
  constructor
  · exact fun h => ⟨(key, r), ⟨h, rfl⟩, rfl⟩
  · rintro ⟨row, ⟨hmem, rfl⟩, rfl⟩
    exact hmem

/-- What is there of a key is settled by the rows. -/
theorem get_eq_of_mem_iff {t u : Keyed ρ} {key : ℤ}
    (h : ∀ r, (key, r) ∈ t.rows ↔ (key, r) ∈ u.rows) : t.get key = u.get key :=
  Option.ext fun r => by rw [← mem_rows_iff, h, mem_rows_iff]

@[simp] theorem get_put_self (t : Keyed ρ) (key : ℤ) (r : ρ) : (t.put key r).get key = some r :=
  (mem_rows_iff _).mp (List.mem_append_right _ List.mem_cons_self)

theorem get_put_of_ne (t : Keyed ρ) {key key' : ℤ} (r : ρ) (h : key' ≠ key) :
    (t.put key r).get key' = t.get key' := by
  refine get_eq_of_mem_iff fun r' => ?_
  simp only [put, List.mem_append, List.mem_filter, List.mem_cons, Prod.mk.injEq, h, false_and,
    false_or, decide_eq_true_eq, ← and_or_left]
  exact and_iff_left (lt_or_gt_of_ne h)

@[simp] theorem get_remove_self (t : Keyed ρ) (key : ℤ) : (t.remove key).get key = none := by
  refine Option.eq_none_iff_forall_ne_some.mpr fun r h => ?_
  have := (List.mem_filter.mp ((mem_rows_iff _).mpr h)).2
  simp at this

theorem get_remove_of_ne (t : Keyed ρ) {key key' : ℤ} (h : key' ≠ key) :
    (t.remove key).get key' = t.get key' :=
  get_eq_of_mem_iff fun r => by simp [remove, h]

theorem get_modify (t : Keyed ρ) (key key' : ℤ) (f : ρ → ρ) :
    (t.modify key f).get key' = if key' = key then (t.get key).map f else t.get key' := by
  rw [modify]
  split
  · next hnone =>
      split
      · next h => rw [h, hnone, Option.map_none]
      · rfl
  · next r hsome =>
      split
      · next h => rw [h, get_put_self, hsome, Option.map_some]
      · next h => rw [get_put_of_ne t _ h]

end Keyed

end Support
