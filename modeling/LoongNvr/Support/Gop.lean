import Mathlib.Data.List.Basic
import Mathlib.Tactic.TypeStar

/-!
# Support — Gop

Groups of pictures.  `flags` says of every frame sent so far, in order, whether it is a keyframe;
`read` are the numbers of the frames that somebody received.

* `GopsComplete`: frames are received in order, and each with all those back to its keyframe.
* `Linked`: the invariant of a sender; each frame that is not a keyframe was passed on after
  the frame before it.  It says the same of the frames received (`complete`, `linked`).
* `Linked.remove`: what is left out of the middle must end before a keyframe.
-/

namespace Support

/-- The frames come in order, and each comes with every frame of its group back to and including
the keyframe. -/
def GopsComplete (flags : List Bool) (read : List ℕ) : Prop :=
  read.Pairwise (· < ·) ∧ ∀ n ∈ read, ∃ k ≤ n, flags[k]? = some true ∧
    (∀ i, k < i → i ≤ n → flags[i]? = some false) ∧ ∀ i, k ≤ i → i ≤ n → i ∈ read

/-- The frames come in order, and each that is no keyframe comes with the one before it. -/
structure Linked (flags : List Bool) (nums : List ℕ) : Prop where
  ordered : nums.Pairwise (· < ·)
  linked : ∀ n ∈ nums, flags[n]? = some true ∨
    flags[n]? = some false ∧ ∃ m ∈ nums, n = m + 1

namespace Linked

variable {flags : List Bool} {nums : List ℕ}

theorem nil : Linked flags [] := ⟨.nil, fun _ h => absurd h List.not_mem_nil⟩

theorem lt (h : Linked flags nums) {n : ℕ} (hn : n ∈ nums) : n < flags.length := by
  rcases h.linked n hn with hkey | ⟨hinter, -⟩
  · exact (List.getElem?_eq_some_iff.mp hkey).1
  · exact (List.getElem?_eq_some_iff.mp hinter).1

/-- One more frame, not passed on. -/
theorem skip (h : Linked flags nums) (key : Bool) : Linked (flags ++ [key]) nums := by
  refine ⟨h.ordered, fun n hn => ?_⟩
  rw [List.getElem?_append_left (h.lt hn)]
  exact h.linked n hn

/-- A step that sends at most one frame, and passes none on. -/
theorem skip_at_most {flags' : List Bool} (h : Linked flags nums)
    (hstep : flags' = flags ∨ ∃ key, flags' = flags ++ [key]) : Linked flags' nums := by
  rcases hstep with rfl | ⟨key, rfl⟩
  · exact h
  · exact h.skip key

/-- One more frame, passed on: a keyframe, or after the frame before it. -/
theorem put (h : Linked flags nums) {key : Bool} (hkey : key = true ∨ flags.length - 1 ∈ nums) :
    Linked (flags ++ [key]) (nums ++ [flags.length]) := by
  refine ⟨List.pairwise_append.mpr ⟨h.ordered, List.pairwise_singleton _ _, ?_⟩, ?_⟩
  · intro n hn m hm
    rw [List.mem_singleton.mp hm]
    exact h.lt hn
  · intro n hn
    rcases List.mem_append.mp hn with hold | hnew
    · rcases (h.skip key).linked n hold with hk | ⟨hi, m, hm, e⟩
      · exact .inl hk
      · exact .inr ⟨hi, m, List.mem_append_left _ hm, e⟩
    · obtain rfl := List.mem_singleton.mp hnew
      have hflag : (flags ++ [key])[flags.length]? = some key := by simp
      rcases hkey with rfl | hprev
      · exact .inl hflag
      · have hpos : flags.length - 1 < flags.length := h.lt hprev
        cases key with
        | true => exact .inl hflag
        | false => exact .inr ⟨hflag, _, List.mem_append_left _ hprev, by omega⟩

/-- What has been received so far, where the rest is still on its way. -/
theorem left {more : List ℕ} (h : Linked flags (nums ++ more)) : Linked flags nums := by
  obtain ⟨hnums, -, hlt⟩ := List.pairwise_append.mp h.ordered
  refine ⟨hnums, fun n hn => ?_⟩
  rcases h.linked n (List.mem_append_left _ hn) with hkey | ⟨hinter, m, hm, e⟩
  · exact .inl hkey
  · refine .inr ⟨hinter, m, ?_, e⟩
    rcases List.mem_append.mp hm with hin | hmore
    · exact hin
    · exact absurd (hlt n hn m hmore) (by omega)

/-- A part can be left out when a keyframe comes after it. -/
theorem remove {a d k : List ℕ} (h : Linked flags (a ++ (d ++ k)))
    (hkey : ∀ n ∈ k.head?, flags[n]? = some true) : Linked flags (a ++ k) := by
  obtain ⟨ha, hdk, hadk⟩ := List.pairwise_append.mp h.ordered
  obtain ⟨-, hk, hlt⟩ := List.pairwise_append.mp hdk
  refine ⟨List.pairwise_append.mpr ⟨ha, hk, fun n hn m hm =>
    hadk n hn m (List.mem_append_right _ hm)⟩, fun n hn => ?_⟩
  rcases List.mem_append.mp hn with hna | hnk
  · rcases h.left.linked n hna with ht | ⟨hf, m, hm, e⟩
    · exact .inl ht
    · exact .inr ⟨hf, m, List.mem_append_left _ hm, e⟩
  · cases k with
    | nil => exact absurd hnk List.not_mem_nil
    | cons first rest =>
        have hfirst : flags[first]? = some true := hkey first rfl
        rcases List.mem_cons.mp hnk with rfl | hrest
        · exact .inl hfirst
        · have hgt : first < n := List.rel_of_pairwise_cons hk hrest
          rcases h.linked n (List.mem_append_right _ (List.mem_append_right _ hnk)) with
            ht | ⟨hf, m, hm, e⟩
          · exact .inl ht
          · -- the frame before `n` is at or after the keyframe, so it is not left out
            refine .inr ⟨hf, m, List.mem_append_right _ ?_, e⟩
            have hmem : first ∈ d ++ first :: rest :=
              List.mem_append_right _ List.mem_cons_self
            rcases List.mem_append.mp hm with hma | hmdk
            · have := hadk m hma first hmem
              omega
            · rcases List.mem_append.mp hmdk with hmd | hmk
              · have := hlt m hmd first List.mem_cons_self
                omega
              · exact hmk

/-- A frame is there with all those back to its keyframe. -/
theorem gop (h : Linked flags nums) : ∀ n ∈ nums, ∃ k ≤ n, flags[k]? = some true ∧
    (∀ i, k < i → i ≤ n → flags[i]? = some false) ∧ ∀ i, k ≤ i → i ≤ n → i ∈ nums := by
  intro n
  induction n using Nat.strongRecOn with
  | ind n ih =>
      intro hn
      rcases h.linked n hn with hkey | ⟨hinter, m, hm, e⟩
      · refine ⟨n, Nat.le_refl n, hkey, fun i h₁ h₂ => absurd h₁ (by omega), fun i h₁ h₂ => ?_⟩
        obtain rfl : i = n := by omega
        exact hn
      · obtain ⟨k, hk, hkey, hbetween, hall⟩ := ih m (by omega) hm
        refine ⟨k, by omega, hkey, fun i h₁ h₂ => ?_, fun i h₁ h₂ => ?_⟩
        · by_cases hlast : i = n
          · exact hlast ▸ hinter
          · exact hbetween i h₁ (by omega)
        · by_cases hlast : i = n
          · exact hlast ▸ hn
          · exact hall i h₁ (by omega)

theorem complete (h : Linked flags nums) : GopsComplete flags nums := ⟨h.ordered, h.gop⟩

end Linked

theorem GopsComplete.linked {flags : List Bool} {nums : List ℕ} (h : GopsComplete flags nums) :
    Linked flags nums := by
  refine ⟨h.1, fun n hn => ?_⟩
  obtain ⟨k, hk, hkey, hbetween, hall⟩ := h.2 n hn
  rcases Nat.eq_or_lt_of_le hk with rfl | hlt
  · exact .inl hkey
  · exact .inr ⟨hbetween n hlt (Nat.le_refl n), n - 1, hall _ (by omega) (by omega), by omega⟩

end Support
