import LoongNvr.Support.Decimal
import Mathlib.Data.List.Nodup
import Mathlib.Data.Option.Basic

/-!
# Support — Document

A JSON value as a C++ JSON library shows it from the top.  `items()` goes through an array too, with
the indices as keys, and through any other value that is not null, under the empty key; `find` and
`contains` know the members of objects only.

* `items`, `member`: the two ways to look at a document.
* `merge`: the items of another document, set as members.
* `nodup_items`: a key is there once.
* `member_merge`: each member is that item, or what it was.
-/

namespace Support
open Std (ExtTreeMap)

/-- A JSON value; `ν` are the values below the top. -/
inductive Document (ν : Type*)
  | null
  | object (members : ExtTreeMap String ν)
  | array (elements : List ν)
  | primitive (value : ν)
  deriving DecidableEq

namespace Document

variable {ν : Type*} {c c' : Document ν} {key : String} {value : ν}

/-- The key of an element of an array. -/
def indexKey (i : ℕ) : String := String.ofList (decimal i)

/-- `j.items()` -/
def items : Document ν → List (String × ν)
  | .null => []
  | .object members => members.toList
  | .array elements => elements.zipIdx.map fun (value, i) => (indexKey i, value)
  | .primitive value => [("", value)]

/-- `j.find(key)`; only an object has members. -/
def member (key : String) : Document ν → Option ν
  | .object members => members[key]?
  | _ => none

/-- `j.contains(key)` -/
def contains (key : String) (c : Document ν) : Bool := (c.member key).isSome

/-- `j[key] = value`: null becomes an object, and any other value throws. -/
def set (key : String) (value : ν) : Document ν → Option (Document ν)
  | .null => some (.object (ExtTreeMap.insert ∅ key value))
  | .object members => some (.object (members.insert key value))
  | _ => none

/-- `for (auto& [key, value] : patch.items()) j[key] = value;` -/
def merge (patch c : Document ν) : Option (Document ν) :=
  patch.items.foldlM (fun c item => c.set item.1 item.2) c

/-! ### Items -/

theorem indexKey_injective : Function.Injective indexKey := by
  intro i j h
  have hpadded : ∀ n, padded 0 n = decimal n := by
    intro n
    rw [padded, Nat.zero_sub]
    rfl
  have hdigits : padded 0 (i : ℤ) = padded 0 j := by
    rw [hpadded, hpadded]
    exact String.ofList_injective h
  exact Int.ofNat.inj (padded_injective 0 hdigits)

/-- **A key is there once.** -/
theorem nodup_items (c : Document ν) : (c.items.map (·.1)).Nodup := by
  cases c with
  | null => exact List.nodup_nil
  | object members =>
      rw [items, ExtTreeMap.map_fst_toList_eq_keys]
      exact ExtTreeMap.nodup_keys
  | array elements =>
      have hkeys : (elements.zipIdx.map fun (value, i) => (indexKey i, value)).map (·.1) =
          (List.range elements.length).map indexKey := by
        rw [List.range_eq_range', ← List.zipIdx_map_snd, List.map_map, List.map_map]
        rfl
      rw [items, hkeys]
      exact List.nodup_range.map indexKey_injective
  | primitive value => exact List.nodup_singleton _

/-- A list with one value for each key. -/
theorem lookup_eq_some_iff_mem {l : List (String × ν)} (h : (l.map (·.1)).Nodup) :
    l.lookup key = some value ↔ (key, value) ∈ l := by
  induction l with
  | nil => simp
  | cons item l ih =>
      obtain ⟨key', value'⟩ := item
      obtain ⟨hnew, hl⟩ := List.nodup_cons.mp h
      by_cases e : key = key'
      · subst e
        have hnot : (key, value) ∉ l := fun hmem => hnew (List.mem_map_of_mem (f := (·.1)) hmem)
        simp [hnot, eq_comm]
      · rw [List.lookup_cons, beq_eq_false_iff_ne.mpr e, ih hl]
        simp [e]

/-- What an item of an object is. -/
theorem lookup_items_object (members : ExtTreeMap String ν) :
    (object members).items.lookup key = members[key]? := by
  refine Option.ext fun value => ?_
  rw [lookup_eq_some_iff_mem (nodup_items _), items, ExtTreeMap.mem_toList_iff_getElem?_eq_some]

/-- A member is an item. -/
theorem lookup_of_member (h : c.member key = some value) : c.items.lookup key = some value := by
  cases c with
  | object members => rwa [lookup_items_object]
  | null => cases h
  | array elements => cases h
  | primitive value => cases h

/-- Some item of a document has the key and the property. -/
theorem mem_keys_filter {p : String × ν → Bool} :
    key ∈ (c.items.filter p).map (·.1) ↔
      ∃ value, c.items.lookup key = some value ∧ p (key, value) = true := by
  simp only [List.mem_map, List.mem_filter]
  constructor
  · rintro ⟨⟨key, value⟩, ⟨hmem, hp⟩, rfl⟩
    exact ⟨value, (lookup_eq_some_iff_mem c.nodup_items).mpr hmem, hp⟩
  · rintro ⟨value, hitem, hp⟩
    exact ⟨(key, value), ⟨(lookup_eq_some_iff_mem c.nodup_items).mp hitem, hp⟩, rfl⟩

theorem count_keys_filter (c : Document ν) (p : String × ν → Bool) (key : String) :
    ((c.items.filter p).map (·.1)).count key =
      if key ∈ (c.items.filter p).map (·.1) then 1 else 0 :=
  (c.nodup_items.sublist (List.filter_sublist.map _)).count

/-! ### Merging -/

theorem member_set {key' : String} (h : c.set key value = some c') :
    c'.member key' = if key' = key then some value else c.member key' := by
  have hinsert : ∀ members : ExtTreeMap String ν,
      (members.insert key value)[key']? = if key' = key then some value else members[key']? := by
    intro members
    rw [ExtTreeMap.getElem?_insert]
    refine if_congr ?_ rfl rfl
    rw [Std.LawfulEqCmp.compare_eq_iff_eq, eq_comm]
  cases c with
  | null =>
      obtain rfl := Option.some.inj h
      rw [member, hinsert]
      simp [member]
  | object members =>
      obtain rfl := Option.some.inj h
      exact hinsert members
  | array elements => cases h
  | primitive value => cases h

/-- **Each member of what is merged is the item of that key, or what it was.** -/
theorem member_merge {patch : Document ν} (h : patch.merge c = some c') (key : String) :
    c'.member key = (patch.items.lookup key).or (c.member key) := by
  have hnodup := patch.nodup_items
  rw [merge] at h
  generalize patch.items = l at h hnodup
  induction l generalizing c with
  | nil =>
      obtain rfl := Option.some.inj h
      rfl
  | cons item l ih =>
      obtain ⟨key', value⟩ := item
      obtain ⟨hnew, hl⟩ := List.nodup_cons.mp hnodup
      rw [List.foldlM_cons] at h
      obtain ⟨c₁, hset, hrest⟩ := Option.bind_eq_some_iff.mp h
      rw [ih hrest hl, member_set hset]
      by_cases e : key = key'
      · subst e
        have hnone : l.lookup key = none := by
          rw [List.lookup_eq_none_iff]
          intro item hitem
          rw [bne_iff_ne]
          rintro rfl
          exact hnew (List.mem_map_of_mem (f := (·.1)) hitem)
        simp [hnone]
      · rw [List.lookup_cons, beq_eq_false_iff_ne.mpr e, if_neg e]

end Document

end Support
