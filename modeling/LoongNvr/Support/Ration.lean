import Mathlib.Algebra.BigOperators.Group.List.Basic
import Mathlib.Algebra.Order.Group.Int
import Mathlib.Data.List.AList
import Mathlib.Tactic.Linarith

/-!
# Support — Ration

A budget that is shared out to the items of a list, one after the other: `serve b a` is what is left
of the budget `b` after the item `a`, and what the item gets.

* `turns`: each item with what is left when its turn comes; `leftOver`: what is left at the end.
* `forall_turns`: what every turn keeps holds of the budget at every turn.
* `pairwise_turns`: what a turn brings about holds at all later ones.
* `sum_turns_le`: what is spent is the budget, but for what is waived at each turn.
* `mapEntries`: a map with its values changed; `entries_perm`: its entries, by any list of its keys.
-/

namespace Support

variable {α β : Type*} {serve : ℤ → α → ℤ × β}

/-- Each item with what is left of the budget when its turn comes. -/
def turns (serve : ℤ → α → ℤ × β) : ℤ → List α → List (ℤ × α)
  | _, [] => []
  | b, a :: as => (b, a) :: turns serve (serve b a).1 as

/-- What is left of the budget. -/
def leftOver (serve : ℤ → α → ℤ × β) (b : ℤ) (as : List α) : ℤ :=
  as.foldl (fun b a => (serve b a).1) b

theorem map_snd_turns (serve : ℤ → α → ℤ × β) (b : ℤ) (as : List α) :
    (turns serve b as).map (·.2) = as := by
  induction as generalizing b with
  | nil => rfl
  | cons a as ih => rw [turns, List.map_cons, ih]

theorem mem_of_mem_turns {b : ℤ} {as : List α} {t : ℤ × α} (h : t ∈ turns serve b as) :
    t.2 ∈ as := by
  rw [← map_snd_turns serve b as]
  exact List.mem_map_of_mem h

theorem exists_turn (serve : ℤ → α → ℤ × β) (b : ℤ) {as : List α} {a : α} (h : a ∈ as) :
    ∃ t ∈ turns serve b as, t.2 = a := by
  rw [← map_snd_turns serve b as] at h
  exact List.mem_map.mp h

/-- **What every turn keeps.** -/
theorem forall_turns (I : ℤ → Prop) {b : ℤ} {as : List α}
    (hkeep : ∀ t ∈ turns serve b as, I t.1 → I (serve t.1 t.2).1) (hb : I b) :
    ∀ t ∈ turns serve b as, I t.1 := by
  induction as generalizing b with
  | nil => exact fun t ht => nomatch ht
  | cons a as ih =>
      obtain ⟨ha, has⟩ := List.forall_mem_cons.mp hkeep
      exact List.forall_mem_cons.mpr ⟨hb, ih has (ha hb)⟩

theorem leftOver_of_keeps (I : ℤ → Prop) {b : ℤ} {as : List α}
    (hkeep : ∀ t ∈ turns serve b as, I t.1 → I (serve t.1 t.2).1) (hb : I b) :
    I (leftOver serve b as) := by
  induction as generalizing b with
  | nil => exact hb
  | cons a as ih =>
      obtain ⟨ha, has⟩ := List.forall_mem_cons.mp hkeep
      exact ih has (ha hb)

/-- **What a turn brings about**, at all later turns. -/
theorem pairwise_turns (T : ℤ → α → Prop) (I : ℤ → Prop) {b : ℤ} {as : List α}
    (hbegin : ∀ t ∈ turns serve b as, T t.1 t.2 → I (serve t.1 t.2).1)
    (hkeep : ∀ t ∈ turns serve b as, I t.1 → I (serve t.1 t.2).1) :
    (turns serve b as).Pairwise fun t t' => T t.1 t.2 → I t'.1 := by
  induction as generalizing b with
  | nil => exact .nil
  | cons a as ih =>
      obtain ⟨hfirst, hnext⟩ := List.forall_mem_cons.mp hbegin
      obtain ⟨-, hlater⟩ := List.forall_mem_cons.mp hkeep
      refine List.pairwise_cons.mpr ⟨fun t ht hT => ?_, ih hnext hlater⟩
      exact forall_turns I hlater (hfirst hT) t ht

/-- **What is spent.** -/
theorem sum_turns_le (cost waived : ℤ × α → ℤ) {b : ℤ} {as : List α}
    (h : ∀ t ∈ turns serve b as, cost t ≤ t.1 - (serve t.1 t.2).1 + waived t) :
    ((turns serve b as).map cost).sum ≤
      b - leftOver serve b as + ((turns serve b as).map waived).sum := by
  induction as generalizing b with
  | nil => simp [turns, leftOver]
  | cons a as ih =>
      obtain ⟨ha, has⟩ := List.forall_mem_cons.mp h
      have hrest := ih has
      have hleft : leftOver serve b (a :: as) = leftOver serve (serve b a).1 as := rfl
      simp only [turns, List.map_cons, List.sum_cons, hleft] at ha ⊢
      linarith

/-! ### Maps -/

variable {κ : Type*} [DecidableEq κ]

/-- A map with its values changed. -/
def mapEntries (f : κ → β → β) (m : AList fun _ : κ => β) : AList fun _ : κ => β where
  entries := m.entries.map fun e => ⟨e.1, f e.1 e.2⟩
  nodupKeys := by
    have hkeys : (m.entries.map fun e => (⟨e.1, f e.1 e.2⟩ : Σ _ : κ, β)).keys = m.keys := by
      rw [List.keys, List.map_map]
      rfl
    rw [List.NodupKeys, hkeys]
    exact m.keys_nodup

theorem lookup_mapEntries (f : κ → β → β) (m : AList fun _ : κ => β) (k : κ) :
    (mapEntries f m).lookup k = (m.lookup k).map (f k) :=
  List.dlookup_map₂ k

/-- The entries of a map that satisfy a condition, by any list of their keys. -/
theorem entries_perm {m : AList fun _ : κ => β} {p : β → Bool} {es : List (Σ _ : κ, β)}
    (hnodup : es.NodupKeys) (hes : ∀ k b, ⟨k, b⟩ ∈ es ↔ b ∈ m.lookup k ∧ p b = true) :
    (m.entries.filter fun e => p e.2).Perm es := by
  refine (List.perm_ext_iff_of_nodup ?_ hnodup.nodup).mpr fun e => ?_
  · exact m.nodupKeys.nodup.filter _
  · rw [List.mem_filter, hes, AList.mem_lookup_iff]

end Support
