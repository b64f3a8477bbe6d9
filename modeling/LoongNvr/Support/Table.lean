import Mathlib.Algebra.BigOperators.Group.List.Basic
import Mathlib.Data.List.Nodup
import Mathlib.Data.Int.Order.Basic
import Mathlib.Order.Lattice

/-!
# Support — Table

A table with an `INTEGER PRIMARY KEY AUTOINCREMENT`: rows in the order of their ids, and the
highest id ever given out, so that no id is given twice.

* `insert`, `modify`, `delete`, `find`: the statements by id; `deleteWhere`, `select`: by a
  condition.
* `find_eq_some_iff`: an id names at most one row.
* `select_insert`, `select_modify`, `select_delete`: what a statement does to the answer of a
  query it does not touch, or adds to it.
* `find?_select_insert`, `find?_select_modify`, `find?_select_delete`: the row with an id in an answer
  stays where the statement is about another.
* `sum_modify`: what an `UPDATE` does to a sum over the rows.
-/

namespace Support

/-- Rows with their ids. -/
structure Table (ρ : Type*) where
  rows : List (ℤ × ρ)
  seq : ℤ
  sorted : rows.Pairwise (·.1 < ·.1)
  bounded : ∀ row ∈ rows, row.1 ≤ seq
  seq_nonneg : 0 ≤ seq

namespace Table

variable {ρ : Type*}

/-- A new table. -/
def empty : Table ρ where
  rows := []
  seq := 0
  sorted := .nil
  bounded _ h := absurd h List.not_mem_nil
  seq_nonneg := le_rfl

/-- `INSERT`: the row gets the next id. -/
def insert (t : Table ρ) (r : ρ) : Table ρ where
  rows := t.rows ++ [(t.seq + 1, r)]
  seq := t.seq + 1
  sorted := List.pairwise_append.mpr ⟨t.sorted, List.pairwise_singleton _ _, fun a ha b hb => by
    have := t.bounded a ha
    rw [List.mem_singleton] at hb
    subst hb
    exact Int.lt_add_one_of_le this⟩
  seq_nonneg := by
    have := t.seq_nonneg
    omega
  bounded row h := by
    rcases List.mem_append.mp h with hold | hnew
    · have := t.bounded row hold
      omega
    · rw [List.mem_singleton] at hnew
      exact hnew ▸ le_rfl

/-- The row with the id changed and the others as they are. -/
def modifyRow (id : ℤ) (f : ρ → ρ) (row : ℤ × ρ) : ℤ × ρ :=
  if row.1 = id then (row.1, f row.2) else row

@[simp] theorem modifyRow_fst (id : ℤ) (f : ρ → ρ) (row : ℤ × ρ) :
    (modifyRow id f row).1 = row.1 := by
  simp only [modifyRow]
  split <;> rfl

/-- `UPDATE … WHERE id = ?` -/
def modify (t : Table ρ) (id : ℤ) (f : ρ → ρ) : Table ρ where
  rows := t.rows.map (modifyRow id f)
  seq := t.seq
  sorted := List.pairwise_map.mpr (t.sorted.imp fun h => by simpa using h)
  bounded row h := by
    obtain ⟨row', h', rfl⟩ := List.mem_map.mp h
    simpa using t.bounded row' h'
  seq_nonneg := t.seq_nonneg

/-- `DELETE … WHERE id = ?` -/
def delete (t : Table ρ) (id : ℤ) : Table ρ where
  rows := t.rows.filter fun row => row.1 ≠ id
  seq := t.seq
  sorted := t.sorted.filter _
  bounded row h := t.bounded row (List.mem_filter.mp h).1
  seq_nonneg := t.seq_nonneg

/-- `DELETE … WHERE p` -/
def deleteWhere (t : Table ρ) (p : ρ → Bool) : Table ρ where
  rows := t.rows.filter fun row => !p row.2
  seq := t.seq
  sorted := t.sorted.filter _
  bounded row h := t.bounded row (List.mem_filter.mp h).1
  seq_nonneg := t.seq_nonneg

/-- `SELECT … WHERE id = ?` -/
def find (t : Table ρ) (id : ℤ) : Option ρ := (t.rows.find? fun row => row.1 = id).map (·.2)

/-- `SELECT … WHERE p ORDER BY id` -/
def select (t : Table ρ) (p : ℤ × ρ → Bool) : List (ℤ × ρ) := t.rows.filter p

/-! ### Rows by id -/

theorem nodup_ids (t : Table ρ) : (t.rows.map (·.1)).Nodup :=
  List.pairwise_map.mpr (t.sorted.imp ne_of_lt)

theorem eq_of_fst_eq (t : Table ρ) {a b : ℤ × ρ} (ha : a ∈ t.rows) (hb : b ∈ t.rows)
    (h : a.1 = b.1) : a = b :=
  List.inj_on_of_nodup_map t.nodup_ids ha hb h

/-- **An id names one row.** -/
theorem find_eq_some_iff (t : Table ρ) {id : ℤ} {r : ρ} :
    t.find id = some r ↔ (id, r) ∈ t.rows := by
  simp only [find]
  constructor
  · intro h
    obtain ⟨row, hfind, rfl⟩ := Option.map_eq_some_iff.mp h
    have hid : row.1 = id := by simpa using List.find?_some hfind
    exact hid ▸ List.mem_of_find?_eq_some hfind
  · intro h
    cases hfind : t.rows.find? fun row => row.1 = id with
    | none => exact absurd (List.find?_eq_none.mp hfind _ h) (by simp)
    | some row =>
        have hid : row.1 = id := by simpa using List.find?_some hfind
        have hrow := t.eq_of_fst_eq (List.mem_of_find?_eq_some hfind) h hid
        rw [hrow, Option.map_some]

/-! ### Statements one after the other -/

theorem ext_rows {t u : Table ρ} (hrows : t.rows = u.rows) (hseq : t.seq = u.seq) : t = u := by
  cases t
  cases u
  cases hrows
  cases hseq
  rfl

/-- An `UPDATE` of another row and an `INSERT` commute. -/
theorem modify_insert (t : Table ρ) (r : ρ) {id : ℤ} {f : ρ → ρ} (h : id ≠ t.seq + 1) :
    (t.insert r).modify id f = (t.modify id f).insert r := by
  have hnew : modifyRow id f (t.seq + 1, r) = (t.seq + 1, r) := if_neg (Ne.symm h)
  refine ext_rows ?_ rfl
  simp only [modify, insert, List.map_append, List.map_cons, List.map_nil, hnew]

/-! ### Queries after a statement -/

variable {t : Table ρ} {p : ℤ × ρ → Bool}

theorem mem_select {row : ℤ × ρ} : row ∈ t.select p ↔ row ∈ t.rows ∧ p row = true :=
  List.mem_filter

theorem select_insert (r : ρ) :
    (t.insert r).select p =
      t.select p ++ if p (t.seq + 1, r) then [(t.seq + 1, r)] else [] := by
  simp only [select, insert, List.filter_append, List.filter_cons, List.filter_nil]

/-- A changed row that neither was nor is in the answer leaves it as it is. -/
theorem select_modify {id : ℤ} {f : ρ → ρ}
    (h : ∀ r, t.find id = some r → p (id, r) = false ∧ p (id, f r) = false) :
    (t.modify id f).select p = t.select p := by
  have hrows : ∀ rows : List (ℤ × ρ), (∀ row ∈ rows, row ∈ t.rows) →
      (rows.map (modifyRow id f)).filter p = rows.filter p := by
    intro rows
    induction rows with
    | nil => exact fun _ => rfl
    | cons row rows ih =>
        intro hmem
        have ih := ih fun r hr => hmem r (List.mem_cons_of_mem _ hr)
        by_cases e : row.1 = id
        · subst e
          obtain ⟨hold, hnew⟩ := h row.2 (t.find_eq_some_iff.mpr (hmem row List.mem_cons_self))
          have hmod : modifyRow row.1 f row = (row.1, f row.2) := if_pos rfl
          rw [List.map_cons, hmod, List.filter_cons_of_neg (by simp [hnew]),
            List.filter_cons_of_neg (by simp [hold]), ih]
        · have hmod : modifyRow id f row = row := if_neg e
          rw [List.map_cons, hmod, List.filter_cons, List.filter_cons, ih]
  exact hrows t.rows fun _ h => h

/-- A row that was not in the answer may go. -/
theorem select_delete {id : ℤ} (h : ∀ r, t.find id = some r → p (id, r) = false) :
    (t.delete id).select p = t.select p := by
  simp only [select, delete, List.filter_filter]
  refine List.filter_congr fun row hrow => ?_
  by_cases e : row.1 = id
  · subst e
    simp [h row.2 (t.find_eq_some_iff.mpr hrow)]
  · simp [e]

/-! ### A row in an answer -/

theorem find?_select_insert (r : ρ) {id : ℤ} (h : id ≠ t.seq + 1) :
    ((t.insert r).select p).find? (fun row => row.1 = id) =
      (t.select p).find? fun row => row.1 = id := by
  rw [select_insert, List.find?_append]
  split
  · simp [Ne.symm h]
  · simp

theorem find?_select_modify (f : ρ → ρ) {id other : ℤ} (h : id ≠ other) :
    ((t.modify other f).select p).find? (fun row => row.1 = id) =
      (t.select p).find? fun row => row.1 = id := by
  have hsame : ∀ row : ℤ × ρ, row.1 = id → modifyRow other f row = row := by
    rintro row rfl
    exact if_neg h
  simp only [select, modify, List.find?_filter, List.find?_map]
  induction t.rows with
  | nil => rfl
  | cons row rows ih =>
      by_cases hid : row.1 = id
      · cases hp : p row with
        | true => simp [hsame row hid, hid, hp]
        | false => simpa [hsame row hid, hid, hp] using ih
      · simpa [hid] using ih

theorem find?_select_delete {id other : ℤ} (h : id ≠ other) :
    ((t.delete other).select p).find? (fun row => row.1 = id) =
      (t.select p).find? fun row => row.1 = id := by
  simp only [select, delete, List.find?_filter]
  induction t.rows with
  | nil => rfl
  | cons row rows ih =>
      by_cases hid : row.1 = id
      · cases hp : p row with
        | true => simp [hid, hp, h]
        | false => simpa [hid, hp] using ih
      · simpa [hid] using ih

/-- **A sum over the rows** changes by what the changed row's part does. -/
theorem sum_modify {κ : Type*} [AddCommMonoid κ] {weight : ρ → κ} {id : ℤ} {r : ρ} {f : ρ → ρ}
    {d : κ} (h : t.find id = some r) (hd : weight (f r) = weight r + d) :
    ((t.modify id f).rows.map fun row => weight row.2).sum =
      (t.rows.map fun row => weight row.2).sum + d := by
  have hrows : ∀ rows : List (ℤ × ρ), (rows.map (·.1)).Nodup → (id, r) ∈ rows →
      ((rows.map (modifyRow id f)).map fun row => weight row.2).sum =
        (rows.map fun row => weight row.2).sum + d := by
    intro rows
    induction rows with
    | nil => exact fun _ hmem => absurd hmem List.not_mem_nil
    | cons row rows ih =>
        intro hnodup hmem
        obtain ⟨hfirst, hnodup⟩ := List.nodup_cons.mp hnodup
        rcases List.mem_cons.mp hmem with rfl | hmem
        · have hothers : rows.map (modifyRow id f) = rows := by
            refine (List.map_congr_left fun other hother => if_neg ?_).trans (List.map_id _)
            rintro rfl
            exact hfirst (List.mem_map.mpr ⟨other, hother, rfl⟩)
          have hself : modifyRow id f (id, r) = (id, f r) := if_pos rfl
          simp only [List.map_cons, List.sum_cons, hothers, hself, hd]
          exact add_right_comm _ _ _
        · have hne : row.1 ≠ id := by
            rintro rfl
            exact hfirst (List.mem_map.mpr ⟨_, hmem, rfl⟩)
          have hself : modifyRow id f row = row := if_neg hne
          simp only [List.map_cons, List.sum_cons, hself, ih hnodup hmem, add_assoc]
  exact hrows t.rows t.nodup_ids (t.find_eq_some_iff.mp h)

theorem mem_modify_rows {id : ℤ} {f : ρ → ρ} {row : ℤ × ρ} :
    row ∈ (t.modify id f).rows ↔ ∃ old ∈ t.rows, modifyRow id f old = row :=
  List.mem_map

theorem find_modify {id : ℤ} {r : ρ} (h : t.find id = some r) (f : ρ → ρ) :
    (t.modify id f).find id = some (f r) := by
  rw [find_eq_some_iff, mem_modify_rows]
  exact ⟨(id, r), t.find_eq_some_iff.mp h, if_pos rfl⟩

/-- An `UPDATE` of a row changes nothing where it leaves the row as it is. -/
theorem modify_eq_self_iff {id : ℤ} {r : ρ} (h : t.find id = some r) {f : ρ → ρ} :
    t.modify id f = t ↔ f r = r := by
  constructor
  · intro hsame
    have hfound := t.find_modify h f
    rw [hsame, h] at hfound
    exact (Option.some.inj hfound).symm
  · intro hrow
    refine ext_rows ((List.map_congr_left fun row hmem => ?_).trans (List.map_id t.rows)) rfl
    rw [modifyRow, id_eq]
    split
    · next hid =>
        obtain rfl := t.eq_of_fst_eq hmem (t.find_eq_some_iff.mp h) hid
        rw [hrow]
    · rfl

end Table

end Support
