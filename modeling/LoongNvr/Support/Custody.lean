import Mathlib.Data.Nat.Notation
import Mathlib.Data.Option.Basic
import Mathlib.Tactic.TypeStar

/-!
# Support — Custody

Numbered things that a program makes, hands from one place to another, and must not lose.

* `Custody`: how many have been made, and what is at which place.
* `Exclusive`: nothing is at two places.
* `Kept`: everything that was made is somewhere.
* `Moves`, `Makes`: the steps that keep both.
* `Pours`, `Replaces`: what is at one place goes to another, to what is there or in its place.
* `Relocates.kept_iff`, `Replaces.kept_iff`: a step that empties places keeps everything exactly if
  there was nothing at those places.
-/

namespace Support

/-- How many things have been made, and which of them are at a place. -/
structure Custody (π : Type*) where
  made : ℕ
  holds : π → ℕ → Prop

namespace Custody

variable {π : Type*} {dest : π → Option π} {c c' c'' : Custody π}

/-- Nothing is at two places, and only what has been made is anywhere. -/
structure Exclusive (c : Custody π) : Prop where
  one : ∀ p q n, c.holds p n → c.holds q n → p = q
  made : ∀ p n, c.holds p n → n < c.made

/-- Everything that has been made is somewhere. -/
def Kept (c : Custody π) : Prop := ∀ n < c.made, ∃ p, c.holds p n

/-! ### Steps -/

/-- What is at `p` goes to `dest p`, and is lost where that is `none`. -/
structure Relocates (dest : π → Option π) (c c' : Custody π) : Prop where
  made : c'.made = c.made
  holds : ∀ p n, c'.holds p n ↔ ∃ q, c.holds q n ∧ dest q = some p

/-- Nothing is lost. -/
def Moves (c c' : Custody π) : Prop := ∃ dest : π → π, Relocates (fun p => some (dest p)) c c'

/-- A new thing is made, at `p`. -/
structure Makes (p : π) (c c' : Custody π) : Prop where
  made : c'.made = c.made + 1
  holds : ∀ q n, c'.holds q n ↔ c.holds q n ∨ q = p ∧ n = c.made

theorem Relocates.exclusive (h : Relocates dest c c') (hc : Exclusive c) : Exclusive c' where
  one := by
    intro p q n hp hq
    obtain ⟨p', hp', hdestp⟩ := (h.holds p n).mp hp
    obtain ⟨q', hq', hdestq⟩ := (h.holds q n).mp hq
    obtain rfl := hc.one p' q' n hp' hq'
    exact Option.some.inj (hdestp.symm.trans hdestq)
  made := by
    intro p n hp
    obtain ⟨q, hq, -⟩ := (h.holds p n).mp hp
    rw [h.made]
    exact hc.made q n hq

/-- **What a step loses is what was at the places it empties.** -/
theorem Relocates.kept_iff (h : Relocates dest c c') (hc : Exclusive c) (hkept : Kept c) :
    Kept c' ↔ ∀ p n, c.holds p n → dest p ≠ none := by
  constructor
  · intro hkept' p n hp hlost
    obtain ⟨p', hp'⟩ := hkept' n (h.made.symm ▸ hc.made p n hp)
    obtain ⟨q, hq, hdest⟩ := (h.holds p' n).mp hp'
    -- `n` was nowhere but at `p`
    obtain rfl := hc.one q p n hq hp
    rw [hlost] at hdest
    cases hdest
  · intro hdest n hn
    obtain ⟨p, hp⟩ := hkept n (h.made ▸ hn)
    obtain ⟨p', hp'⟩ := Option.ne_none_iff_exists'.mp (hdest p n hp)
    exact ⟨p', (h.holds p' n).mpr ⟨p, hp, hp'⟩⟩

theorem Moves.of_eq (hmade : c'.made = c.made) (hholds : ∀ p n, c'.holds p n ↔ c.holds p n) :
    Moves c c' :=
  ⟨id, hmade, fun p n => by simp [hholds]⟩

theorem Moves.refl (c : Custody π) : Moves c c := .of_eq rfl fun _ _ => Iff.rfl

theorem Moves.trans (h : Moves c c') (h' : Moves c' c'') : Moves c c'' := by
  obtain ⟨dest, hdest⟩ := h
  obtain ⟨dest', hdest'⟩ := h'
  refine ⟨fun p => dest' (dest p), hdest'.made.trans hdest.made, fun p n => ?_⟩
  simp only [hdest'.holds, hdest.holds, Option.some.injEq]
  constructor
  · rintro ⟨_, ⟨q, hq, rfl⟩, rfl⟩
    exact ⟨q, hq, rfl⟩
  · rintro ⟨q, hq, rfl⟩
    exact ⟨dest q, ⟨q, hq, rfl⟩, rfl⟩

theorem Moves.exclusive (h : Moves c c') (hc : Exclusive c) : Exclusive c' := by
  obtain ⟨dest, hdest⟩ := h
  exact hdest.exclusive hc

theorem Moves.kept (h : Moves c c') (hc : Exclusive c) (hkept : Kept c) : Kept c' := by
  obtain ⟨dest, hdest⟩ := h
  exact (hdest.kept_iff hc hkept).mpr fun p n _ => Option.some_ne_none (dest p)

/-! ### From one place to another -/

/-- What is at `p` goes to `q`, to what is there. -/
structure Pours (p q : π) (c c' : Custody π) : Prop where
  made : c'.made = c.made
  holds : ∀ r n, c'.holds r n ↔ r ≠ p ∧ c.holds r n ∨ r = q ∧ c.holds p n

/-- What is at `p` goes to `q`, in the place of what is there. -/
structure Replaces (p q : π) (c c' : Custody π) : Prop where
  made : c'.made = c.made
  holds : ∀ r n, c'.holds r n ↔ (r ≠ p ∧ r ≠ q) ∧ c.holds r n ∨ r = q ∧ c.holds p n

variable {p q : π}

open Classical in
theorem Pours.moves (h : Pours p q c c') : Moves c c' := by
  refine ⟨fun r => if r = p then q else r, h.made, fun r n => ?_⟩
  rw [h.holds]
  constructor
  · rintro (⟨hne, hr⟩ | ⟨rfl, hp⟩)
    · exact ⟨r, hr, congrArg some (if_neg hne)⟩
    · exact ⟨p, hp, congrArg some (if_pos rfl)⟩
  · rintro ⟨r', hr', hdest⟩
    simp only [Option.some.injEq] at hdest
    split at hdest
    · rename_i e
      exact .inr ⟨hdest.symm, e ▸ hr'⟩
    · rename_i hne
      subst hdest
      exact .inl ⟨hne, hr'⟩

open Classical in
theorem Replaces.relocates (h : Replaces p q c c') (hpq : p ≠ q) :
    Relocates (fun r => if r = q then none else if r = p then some q else some r) c c' := by
  refine ⟨h.made, fun r n => ?_⟩
  rw [h.holds]
  constructor
  · rintro (⟨⟨hp, hq⟩, hr⟩ | ⟨rfl, hp⟩)
    · exact ⟨r, hr, by rw [if_neg hq, if_neg hp]⟩
    · exact ⟨p, hp, by rw [if_neg hpq, if_pos rfl]⟩
  · rintro ⟨r', hr', hdest⟩
    split at hdest
    · cases hdest
    · rename_i hq
      split at hdest
      · rename_i e
        exact .inr ⟨(Option.some.inj hdest).symm, e ▸ hr'⟩
      · rename_i hp
        obtain rfl := Option.some.inj hdest
        exact .inl ⟨⟨hp, hq⟩, hr'⟩

theorem Replaces.exclusive (h : Replaces p q c c') (hpq : p ≠ q) (hc : Exclusive c) :
    Exclusive c' :=
  (h.relocates hpq).exclusive hc

/-- **A replacement** keeps everything exactly if it replaces nothing. -/
theorem Replaces.kept_iff (h : Replaces p q c c') (hpq : p ≠ q) (hc : Exclusive c)
    (hkept : Kept c) : Kept c' ↔ ∀ n, ¬ c.holds q n := by
  rw [(h.relocates hpq).kept_iff hc hkept]
  constructor
  · intro hdest n hq
    exact hdest q n hq (if_pos rfl)
  · intro hnone r n hr
    have hne : r ≠ q := by
      rintro rfl
      exact hnone n hr
    rw [if_neg hne]
    split
    · exact Option.some_ne_none q
    · exact Option.some_ne_none r

/-! ### New things -/

theorem Makes.exclusive (h : Makes p c c') (hc : Exclusive c) : Exclusive c' where
  one := by
    intro q q' n hq hq'
    rcases (h.holds q n).mp hq with hold | ⟨rfl, rfl⟩
    · rcases (h.holds q' n).mp hq' with hold' | ⟨rfl, rfl⟩
      · exact hc.one q q' n hold hold'
      · exact absurd (hc.made q _ hold) (Nat.lt_irrefl _)
    · rcases (h.holds q' _).mp hq' with hold' | ⟨rfl, -⟩
      · exact absurd (hc.made q' _ hold') (Nat.lt_irrefl _)
      · rfl
  made := by
    intro q n hq
    rw [h.made]
    rcases (h.holds q n).mp hq with hold | ⟨-, rfl⟩
    · exact Nat.lt_succ_of_lt (hc.made q n hold)
    · exact Nat.lt_succ_self _

theorem Makes.kept (h : Makes p c c') (hkept : Kept c) : Kept c' := by
  intro n hn
  rw [h.made] at hn
  rcases Nat.lt_succ_iff_lt_or_eq.mp hn with hlt | rfl
  · obtain ⟨q, hq⟩ := hkept n hlt
    exact ⟨q, (h.holds q n).mpr (.inl hq)⟩
  · exact ⟨p, (h.holds p _).mpr (.inr ⟨rfl, rfl⟩)⟩

end Custody

end Support
