import LoongNvr.Pipeline.RecognisedPlates
import LoongNvr.Support.Like
import LoongNvr.Support.Sorter

/-!
# Pipeline — PlateStore

The SQLite store of licence plates and its search, a page at a time.  Statements succeed; each puts
rows with equal timestamps in an order of its own, so that each page has a sorter of its own.

* `PlateStore.query`: `Query`, which looks for `LIKE '%text%'` and cuts the text at its first NUL.
* `exactlyFinds_iff`: that finds the plates with the text in them, whatever the plate, exactly when
  the text has no `%`, `_` or NUL.
* `SearchExact`: the pages of a query make up the plates asked for, each once.
* `searchExact_iff`: so it is exactly when no plate matches without having the text, and no
  timestamp is on two sides of the end of a page.
-/

namespace LoongNvr.Pipeline
open LoongNvr.Rules Support

/-- Query parameters for searching plate records. -/
structure PlateQuery where
  plateNumber : String := ""
  channelId : ℤ := -1
  startTime : ℤ := 0
  endTime : ℤ := 0
  limit : ℤ := 100
  offset : ℤ := 0

/-- The table `plates`, whose texts were bound as C strings. -/
structure PlateStore where
  plates : Table PlateRecord
  noNul : ∀ row ∈ plates.rows, '\x00' ∉ row.2.plateNumber.toList

/-- The order of `ORDER BY timestamp DESC`; with equal timestamps it may be any. -/
abbrev NewestFirst :=
  Sorter fun a b : ℤ × PlateRecord => a.2.timestamp > b.2.timestamp

theorem nul_not_mem_cStr (s : String) : '\x00' ∉ (cStr s).toList := by
  rw [cStr, String.toList_ofList]
  intro h
  simpa using List.mem_takeWhile_imp h

/-- What is bound of a record by `Insert`. -/
def boundPlate (record : PlateRecord) : PlateRecord :=
  { record with
    plateNumber := cStr record.plateNumber
    plateColor := cStr record.plateColor
    snapshotPath := cStr record.snapshotPath }

namespace PlateQuery

variable (q : PlateQuery)

/-- The pattern that is bound. -/
def pattern : List Char := (cStr ("%" ++ q.plateNumber ++ "%")).toList

/-- The condition on the plate's number. -/
def Matches (number : String) : Prop := q.plateNumber = "" ∨ like q.pattern number.toList

/-- The other conditions. -/
def Passes (record : PlateRecord) : Prop :=
  (0 ≤ q.channelId → record.channelId = q.channelId) ∧
    (0 < q.startTime → record.timestamp ≥ q.startTime) ∧
    (0 < q.endTime → record.timestamp ≤ q.endTime)

instance (number : String) : Decidable (q.Matches number) := inferInstanceAs (Decidable (_ ∨ _))

instance (record : PlateRecord) : Decidable (q.Passes record) :=
  inferInstanceAs (Decidable (_ ∧ _ ∧ _))

/-- The `WHERE` clause. -/
def selects (record : PlateRecord) : Bool := q.Matches record.plateNumber ∧ q.Passes record

/-- The plates asked for: those with the text in them. -/
def Wants (record : PlateRecord) : Prop :=
  Contains q.plateNumber.toList record.plateNumber.toList ∧ q.Passes record

/-- `LIMIT ? OFFSET ?` -/
def slice {ρ : Type} (rows : List ρ) : List ρ :=
  if q.limit < 0 then rows.drop q.offset.toNat
  else (rows.drop q.offset.toNat).take q.limit.toNat

/-- The query for a page. -/
def atPage (size m : ℕ) : PlateQuery := { q with limit := size, offset := m * size }

end PlateQuery

namespace PlateStore

/-- After `CreateTables`. -/
def empty : PlateStore where
  plates := .empty
  noNul _ h := absurd h List.not_mem_nil

/-- `Insert` -/
def insert (store : PlateStore) (record : PlateRecord) : PlateStore where
  plates := store.plates.insert (boundPlate record)
  noNul row h := by
    rcases List.mem_append.mp h with hold | hnew
    · exact store.noNul row hold
    · obtain rfl := List.mem_singleton.mp hnew
      exact nul_not_mem_cStr record.plateNumber

/-- `PurgeOlderThan` -/
def purgeOlderThan (store : PlateStore) (timestampMs : ℤ) : PlateStore where
  plates := store.plates.deleteWhere (·.timestamp < timestampMs)
  noNul row h := store.noNul row (List.mem_filter.mp h).1

/-- The rows that a query is about. -/
def selected (store : PlateStore) (q : PlateQuery) : List (ℤ × PlateRecord) :=
  store.plates.select fun row => q.selects row.2

/-- `Query` -/
def query (store : PlateStore) (order : NewestFirst) (q : PlateQuery) : List (ℤ × PlateRecord) :=
  q.slice (order.sort (store.selected q))

/-- It is the table that the handler of `ai.detection` writes to. -/
theorem insert_plates (store : PlateStore) (stores : RecognitionStores) (record : PlateRecord)
    (h : stores.plates = store.plates) :
    (stores.insertPlate record).plates = (store.insert record).plates := by
  rw [RecognitionStores.insertPlate, insert, h]
  rfl

end PlateStore

/-! ### The text -/

section Text
variable {q : PlateQuery} {number : String}

/-- The pattern of a text without a NUL. -/
theorem pattern_of_noNul (h : '\x00' ∉ q.plateNumber.toList) :
    q.pattern = anywhere q.plateNumber.toList := by
  have hwhole : cStr ("%" ++ q.plateNumber ++ "%") = "%" ++ q.plateNumber ++ "%" := by
    rw [cStr_eq_self_iff, String.toList_append, String.toList_append]
    simpa using h
  rw [PlateQuery.pattern, hwhole, String.toList_append, String.toList_append]
  rfl

/-- The pattern of a text with a NUL ends there. -/
theorem pattern_of_nul (h : '\x00' ∈ q.plateNumber.toList) :
    q.pattern = '%' :: (cStr q.plateNumber).toList := by
  have htake : ∀ text : List Char, '\x00' ∈ text →
      (text ++ ['%']).takeWhile (· ≠ '\x00') = text.takeWhile (· ≠ '\x00') := by
    intro text htext
    induction text with
    | nil => cases htext
    | cons c text ih =>
        rw [List.cons_append]
        by_cases hc : c = '\x00'
        · rw [List.takeWhile_cons_of_neg (by simpa using hc),
            List.takeWhile_cons_of_neg (by simpa using hc)]
        · have hrest := (List.mem_cons.mp htext).resolve_left (Ne.symm hc)
          rw [List.takeWhile_cons_of_pos (by simpa using hc),
            List.takeWhile_cons_of_pos (by simpa using hc), ih hrest]
  have hpercent : ("%" : String).toList = ['%'] := rfl
  rw [PlateQuery.pattern, cStr, cStr, String.toList_ofList, String.toList_ofList,
    String.toList_append, String.toList_append, hpercent, List.append_assoc, List.singleton_append,
    List.takeWhile_cons_of_pos (by decide), htake _ h]

/-- A plate with the text in it matches. -/
theorem matches_of_contains (hnumber : '\x00' ∉ number.toList)
    (h : Contains q.plateNumber.toList number.toList) : q.Matches number := by
  right
  rw [pattern_of_noNul (nul_not_mem_of_contains hnumber h)]
  exact like_anywhere_of_contains h

/-- **Which texts the search finds**, and nothing else: those without `%`, `_` and NUL. -/
theorem exactlyFinds_iff (q : PlateQuery) :
    (∀ number : String, '\x00' ∉ number.toList →
      (q.Matches number ↔ Contains q.plateNumber.toList number.toList)) ↔
      Literal q.plateNumber.toList ∧ '\x00' ∉ q.plateNumber.toList := by
  constructor
  · intro h
    have hnul : '\x00' ∉ q.plateNumber.toList := by
      intro hmem
      have hfound : q.Matches (cStr q.plateNumber) := by
        right
        rw [pattern_of_nul hmem]
        exact like_any.mpr ⟨_, List.suffix_rfl, like_self _⟩
      exact nul_not_mem_of_contains (nul_not_mem_cStr _) ((h _ (nul_not_mem_cStr _)).mp hfound) hmem
    refine ⟨?_, hnul⟩
    by_contra hlit
    have hstand : '\x00' ∉ (standIn q.plateNumber.toList) := nul_not_mem_standIn hnul
    have hfound : q.Matches (String.ofList (standIn q.plateNumber.toList)) := by
      right
      rw [pattern_of_noNul hnul, String.toList_ofList]
      exact like_anywhere.mpr ⟨_, List.suffix_rfl, like_standIn _⟩
    have hcontains := (h _ (by rwa [String.toList_ofList])).mp hfound
    rw [String.toList_ofList] at hcontains
    exact not_contains_standIn hlit hcontains
  · rintro ⟨hlit, hnul⟩ number hnumber
    refine ⟨?_, matches_of_contains hnumber⟩
    rintro (hempty | hlike)
    · rw [hempty]
      exact List.nil_infix
    · rw [pattern_of_noNul hnul] at hlike
      exact (like_anywhere_iff hlit).mp hlike

end Text

/-! ### The pages -/

namespace PlateStore

/-- The records of the first pages, each with the order of its statement. -/
def found (store : PlateStore) (q : PlateQuery) (size : ℕ) (order : ℕ → NewestFirst) (n : ℕ) :
    List (ℤ × PlateRecord) :=
  (List.range n).flatMap fun m => store.query (order m) (q.atPage size m)

/-- No page from this one on has a record. -/
def EndsAt (store : PlateStore) (q : PlateQuery) (size : ℕ) (order : ℕ → NewestFirst) (n : ℕ) :
    Prop :=
  ∀ m, n ≤ m → store.query (order m) (q.atPage size m) = []

/-- However the statements order equal timestamps, the pages come to an end and their records are
together the plates asked for, each once, none before a newer one. -/
def SearchExact (store : PlateStore) (q : PlateQuery) (size : ℕ) : Prop :=
  ∀ order : ℕ → NewestFirst, (∃ n, store.EndsAt q size order n) ∧
    ∀ n, store.EndsAt q size order n →
      (store.found q size order n).Nodup ∧
      (∀ row, row ∈ store.found q size order n ↔ row ∈ store.plates.rows ∧ q.Wants row.2) ∧
      (store.found q size order n).Pairwise fun a b => b.2.timestamp ≤ a.2.timestamp

variable (store : PlateStore) (q : PlateQuery) {size : ℕ} (order : ℕ → NewestFirst)

theorem query_atPage (s : NewestFirst) (m : ℕ) :
    store.query s (q.atPage size m) = page s (store.selected q) size m := by
  have hoffset : ((m : ℤ) * size).toNat = m * size := by
    rw [← Int.natCast_mul, Int.toNat_natCast]
  have hlimit : ¬ (size : ℤ) < 0 := by omega
  show (q.atPage size m).slice (s.sort (store.selected q)) = _
  rw [PlateQuery.slice, PlateQuery.atPage, if_neg hlimit, hoffset, Int.toNat_natCast]
  rfl

theorem found_eq (n : ℕ) : store.found q size order n = pages order (store.selected q) size n := by
  simp only [found, query_atPage]
  rfl

theorem endsAt_iff (hsize : 1 ≤ size) (n : ℕ) :
    store.EndsAt q size order n ↔ (store.selected q).length ≤ n * size := by
  have hlength (s : NewestFirst) :
      (s.sort (store.selected q)).length = (store.selected q).length := (s.perm _).length_eq
  simp only [EndsAt, query_atPage, page, List.take_eq_nil_iff, List.drop_eq_nil_iff, hlength]
  constructor
  · intro h
    exact (h n le_rfl).resolve_left (by omega)
  · intro h m hm
    exact .inr (h.trans (Nat.mul_le_mul_right size hm))

theorem nodup_selected : (store.selected q).Nodup :=
  (store.plates.nodup_ids.of_map _).filter _

theorem mem_selected {row : ℤ × PlateRecord} :
    row ∈ store.selected q ↔
      row ∈ store.plates.rows ∧ q.Matches row.2.plateNumber ∧ q.Passes row.2 := by
  rw [selected, Table.mem_select, PlateQuery.selects, decide_eq_true_eq]

/-- Without a false match the plates that match are those asked for. -/
theorem mem_selected_iff_wants
    (h : ∀ row ∈ store.plates.rows, q.Passes row.2 → q.Matches row.2.plateNumber →
      Contains q.plateNumber.toList row.2.plateNumber.toList) (row : ℤ × PlateRecord) :
    row ∈ store.selected q ↔ row ∈ store.plates.rows ∧ q.Wants row.2 := by
  rw [mem_selected]
  constructor
  · rintro ⟨hrow, hmatches, hpasses⟩
    exact ⟨hrow, h row hrow hpasses hmatches, hpasses⟩
  · rintro ⟨hrow, hcontains, hpasses⟩
    exact ⟨hrow, matches_of_contains (store.noNul row hrow) hcontains, hpasses⟩

/-- **Where the search is exact**: no plate that passes the other filters matches without having the
text in it, and among the plates that match no timestamp is on both sides of the end of a page. -/
theorem searchExact_iff (hsize : 1 ≤ size) :
    store.SearchExact q size ↔
      (∀ row ∈ store.plates.rows, q.Passes row.2 → q.Matches row.2.plateNumber →
        Contains q.plateNumber.toList row.2.plateNumber.toList) ∧
      ∀ m, ¬ Crosses (fun row => row.2.timestamp) (store.selected q) (m * size) := by
  constructor
  · intro h
    have hcontains : ∀ row ∈ store.plates.rows, q.Passes row.2 → q.Matches row.2.plateNumber →
        Contains q.plateNumber.toList row.2.plateNumber.toList := by
      intro row hrow hpasses hmatches
      let newest : NewestFirst := Sorter.byKeyDesc fun row : ℤ × PlateRecord => row.2.timestamp
      obtain ⟨⟨n, hends⟩, hexact⟩ := h fun _ => newest
      have hlength := (store.endsAt_iff q _ hsize n).mp hends
      have hall : store.found q size (fun _ => newest) n = newest.sort (store.selected q) := by
        rw [found_eq, pages_const, List.take_of_length_le]
        rwa [(newest.perm _).length_eq]
      have hfound : row ∈ store.found q size (fun _ => newest) n := by
        rw [hall, newest.mem, mem_selected]
        exact ⟨hrow, hmatches, hpasses⟩
      exact (((hexact n hends).2.1 row).mp hfound).2.1
    refine ⟨hcontains, (pages_perm_iff hsize (store.nodup_selected q)).mp fun order n hlength => ?_⟩
    obtain ⟨hnodup, hmem, -⟩ := (h order).2 n ((store.endsAt_iff q order hsize n).mpr hlength)
    rw [found_eq] at hnodup hmem
    refine (List.perm_ext_iff_of_nodup hnodup (store.nodup_selected q)).mpr fun row => ?_
    rw [hmem, mem_selected_iff_wants store q hcontains]
  · rintro ⟨hcontains, hclean⟩ order
    refine ⟨⟨(store.selected q).length, ?_⟩, fun n hends => ?_⟩
    · exact (store.endsAt_iff q order hsize _).mpr (Nat.le_mul_of_pos_right _ hsize)
    · have hlength := (store.endsAt_iff q order hsize n).mp hends
      have hperm := (pages_perm_iff hsize (store.nodup_selected q)).mpr hclean order n hlength
      rw [found_eq]
      refine ⟨hperm.nodup_iff.mpr (store.nodup_selected q), fun row => ?_, sorted_pages order n⟩
      rw [hperm.mem_iff, mem_selected_iff_wants store q hcontains]

/-! ### Two plates -/

/-- A store of these plates, each seen at its time. -/
def ofPlates (plates : List (String × ℤ)) : PlateStore :=
  plates.foldl (fun store plate =>
    store.insert
      { plateNumber := plate.1, plateColor := "", confidence := 1, channelId := 1,
        timestamp := plate.2 }) .empty

/-- Two plates with the text, seen one after the other. -/
theorem searchExact_twoPlates :
    (ofPlates [("AB12", 1000), ("cab7", 2000)]).SearchExact { plateNumber := "Ab" } 1 :=
  (searchExact_iff (ofPlates [("AB12", 1000), ("cab7", 2000)]) { plateNumber := "Ab" }
    le_rfl).mpr ⟨by decide, fun m => not_crosses_of_nodup (by decide) (m * 1)⟩

/-- A plate without the text `A_` is found for it. -/
theorem search_refuted : ¬ (ofPlates [("A1", 1000)]).SearchExact { plateNumber := "A_" } 1 := by
  intro h
  let newest : NewestFirst := Sorter.byKeyDesc fun row : ℤ × PlateRecord => row.2.timestamp
  obtain ⟨-, hexact⟩ := h fun _ => newest
  have hlength : ((ofPlates [("A1", 1000)]).selected { plateNumber := "A_" }).length ≤ 1 * 1 := by
    decide
  have hmem := (hexact 1 ((endsAt_iff _ _ _ le_rfl 1).mpr hlength)).2.1
    (1, { plateNumber := "A1", plateColor := "", confidence := 1, channelId := 1,
          timestamp := 1000 })
  have hcontains := (hmem.mp (by decide)).2.1
  exact absurd hcontains (by decide)

end PlateStore

end LoongNvr.Pipeline
