import Mathlib.Data.List.Infix

/-!
# Support — Like

The operator `LIKE` of SQL, without an escape character: `%` stands for any run of characters, `_`
for any one, and any other character for itself, ASCII letters in either case.

* `like`: whether a text matches a pattern.
* `Contains`: whether a text has another in it, ASCII letters compared without case.
* `like_anywhere_of_contains`: a text that has another in it matches that other between two `%`.
* `like_anywhere_iff`: and only such a text, where the other has no `%` or `_`.
* `like_anywhere_exact_iff`: where it has one, some text without it matches too.
-/

namespace Support

/-- `text LIKE pattern` -/
def like : List Char → List Char → Bool
  | [], text => text.isEmpty
  | c :: pattern, text =>
      if c = '%' then text.tails.any (like pattern)
      else
        match text with
        | [] => false
        | d :: text => (c = '_' ∨ c.toLower = d.toLower) && like pattern text

/-- The text has the other in it. -/
def Contains (part text : List Char) : Prop :=
  part.map Char.toLower <:+: text.map Char.toLower

instance (part text : List Char) : Decidable (Contains part text) :=
  inferInstanceAs (Decidable (_ <:+: _))

/-- A text without pattern characters. -/
def Literal (part : List Char) : Prop := '%' ∉ part ∧ '_' ∉ part

instance (part : List Char) : Decidable (Literal part) := inferInstanceAs (Decidable (_ ∧ _))

/-- The pattern for a text anywhere in another. -/
def anywhere (part : List Char) : List Char := '%' :: part ++ ['%']

variable {c : Char} {pattern part text : List Char}

/-- No other letter becomes a NUL. -/
theorem eq_nul_of_toLower (h : c.toLower = '\x00') : c = '\x00' := by
  unfold Char.toLower at h
  split at h
  · rename_i hupper
    have hlow : 65 ≤ c.val.toNat := UInt32.le_iff_toNat_le.mp hupper.1
    have hhigh : c.val.toNat ≤ 90 := UInt32.le_iff_toNat_le.mp hupper.2
    have hdiff : ('a'.val - 'A'.val).toNat = 32 := rfl
    have hnul : '\x00'.val.toNat = 0 := rfl
    have hsum := congrArg UInt32.toNat (congrArg Char.val h)
    rw [UInt32.toNat_add, hdiff, hnul] at hsum
    omega
  · exact h

/-- A text without a NUL has nothing in it that has one. -/
theorem nul_not_mem_of_contains (htext : '\x00' ∉ text) (h : Contains part text) :
    '\x00' ∉ part := by
  intro hmem
  obtain ⟨c, hc, hcase⟩ := List.mem_map.mp (h.subset (List.mem_map.mpr ⟨'\x00', hmem, rfl⟩))
  rw [eq_nul_of_toLower hcase] at hc
  exact htext hc

@[simp] theorem like_nil : like [] text = true ↔ text = [] := by
  rw [like, List.isEmpty_iff]

theorem like_any :
    like ('%' :: pattern) text = true ↔ ∃ rest, rest <:+ text ∧ like pattern rest := by
  rw [like.eq_def]
  simp only [if_pos, List.any_eq_true, List.mem_tails]

theorem like_cons (h : c ≠ '%') :
    like (c :: pattern) text = true ↔
      ∃ d rest, text = d :: rest ∧ (c = '_' ∨ c.toLower = d.toLower) ∧ like pattern rest := by
  rw [like.eq_def]
  simp only [if_neg h]
  cases text with
  | nil => simp
  | cons d text => simp

/-- What comes last is let through by a `%` at the end. -/
theorem like_last_any (text : List Char) : like ['%'] text = true :=
  like_any.mpr ⟨[], List.nil_suffix, rfl⟩

theorem like_self (pattern : List Char) : like pattern pattern := by
  induction pattern with
  | nil => rfl
  | cons c pattern ih =>
      by_cases hany : c = '%'
      · subst hany
        exact like_any.mpr ⟨pattern, List.suffix_cons _ _, ih⟩
      · exact (like_cons hany).mpr ⟨c, pattern, rfl, .inr rfl, ih⟩

/-- A text that begins with another matches that other before a `%`. -/
theorem like_of_prefix (h : part.map Char.toLower <+: text.map Char.toLower) :
    like (part ++ ['%']) text := by
  induction part generalizing text with
  | nil => exact like_last_any text
  | cons c part ih =>
      cases text with
      | nil => simp at h
      | cons d text =>
          rw [List.map_cons, List.map_cons, List.cons_prefix_cons] at h
          obtain ⟨hcase, hrest⟩ := h
          rw [List.cons_append]
          by_cases hany : c = '%'
          · rw [hany]
            exact like_any.mpr ⟨text, List.suffix_cons d text, ih hrest⟩
          · exact (like_cons hany).mpr ⟨d, text, rfl, .inr hcase, ih hrest⟩

/-- Without pattern characters only such a text matches. -/
theorem prefix_of_like (hlit : Literal part) (h : like (part ++ ['%']) text) :
    part.map Char.toLower <+: text.map Char.toLower := by
  induction part generalizing text with
  | nil => exact List.nil_prefix
  | cons c part ih =>
      obtain ⟨hany, hone⟩ := hlit
      rw [List.mem_cons, not_or] at hany hone
      rw [List.cons_append, like_cons (Ne.symm hany.1)] at h
      obtain ⟨d, rest, rfl, hcase, hrest⟩ := h
      rw [List.map_cons, List.map_cons, List.cons_prefix_cons]
      exact ⟨hcase.resolve_left (Ne.symm hone.1), ih ⟨hany.2, hone.2⟩ hrest⟩

theorem like_anywhere :
    like (anywhere part) text ↔ ∃ rest, rest <:+ text ∧ like (part ++ ['%']) rest := like_any

theorem contains_iff_suffix :
    Contains part text ↔
      ∃ rest, rest <:+ text ∧ part.map Char.toLower <+: rest.map Char.toLower := by
  rw [Contains, List.infix_iff_prefix_suffix]
  constructor
  · rintro ⟨lower, hprefix, first, hsplit⟩
    obtain ⟨before, rest, rfl, -, rfl⟩ := List.map_eq_append_iff.mp hsplit.symm
    exact ⟨rest, ⟨before, rfl⟩, hprefix⟩
  · rintro ⟨rest, hsuffix, hprefix⟩
    exact ⟨rest.map Char.toLower, hprefix, hsuffix.map Char.toLower⟩

theorem like_anywhere_of_contains (h : Contains part text) : like (anywhere part) text := by
  obtain ⟨rest, hsuffix, hprefix⟩ := contains_iff_suffix.mp h
  exact like_anywhere.mpr ⟨rest, hsuffix, like_of_prefix hprefix⟩

/-- **A text without pattern characters** is found exactly where it is. -/
theorem like_anywhere_iff (hlit : Literal part) :
    like (anywhere part) text ↔ Contains part text := by
  refine ⟨fun h => ?_, like_anywhere_of_contains⟩
  obtain ⟨rest, hsuffix, hlike⟩ := like_anywhere.mp h
  exact contains_iff_suffix.mpr ⟨rest, hsuffix, prefix_of_like hlit hlike⟩

/-- What the pattern characters of a text can stand for: nothing, and the letter `x`. -/
def standIn (part : List Char) : List Char :=
  (part.filter (· ≠ '%')).map fun c => if c = '_' then 'x' else c

theorem nul_not_mem_standIn (h : '\x00' ∉ part) : '\x00' ∉ standIn part := by
  intro hmem
  obtain ⟨c, hc, hnul⟩ := List.mem_map.mp hmem
  have hpart : c ∈ part := (List.mem_filter.mp hc).1
  split at hnul
  · exact absurd hnul (by decide)
  · exact h (hnul ▸ hpart)

theorem like_standIn (part : List Char) : like (part ++ ['%']) (standIn part) := by
  induction part with
  | nil => exact like_last_any []
  | cons c part ih =>
      rw [List.cons_append]
      by_cases hany : c = '%'
      · subst hany
        exact like_any.mpr ⟨standIn part, List.suffix_rfl, ih⟩
      · have hfilter : standIn (c :: part) = (if c = '_' then 'x' else c) :: standIn part := by
          have hkeep : (c :: part).filter (· ≠ '%') = c :: part.filter (· ≠ '%') :=
            List.filter_cons_of_pos (by simpa using hany)
          rw [standIn, hkeep, List.map_cons]
          rfl
        rw [hfilter, like_cons hany]
        refine ⟨_, _, rfl, ?_, ih⟩
        by_cases hone : c = '_'
        · exact .inl hone
        · exact .inr (by rw [if_neg hone])

theorem not_contains_standIn (h : ¬ Literal part) : ¬ Contains part (standIn part) := by
  intro hcontains
  have hlength : part.length ≤ (part.filter (· ≠ '%')).length := by
    have := hcontains.length_le
    rwa [List.length_map, List.length_map, standIn, List.length_map] at this
  have hnone : part.filter (· ≠ '%') = part :=
    List.filter_sublist.eq_of_length_le hlength
  have hany : '%' ∉ part := fun hmem => by
    have := List.of_mem_filter (hnone.symm ▸ hmem : '%' ∈ part.filter (· ≠ '%'))
    simp at this
  have hsame : part.map Char.toLower = (standIn part).map Char.toLower := by
    refine hcontains.sublist.eq_of_length ?_
    rw [List.length_map, List.length_map, standIn, hnone, List.length_map]
  have hone : '_' ∉ part := by
    intro hmem
    rw [standIn, hnone, List.map_map, List.map_inj_left] at hsame
    exact absurd (hsame '_' hmem) (by decide)
  exact h ⟨hany, hone⟩

/-- **The search for a text is exact** only where it has no pattern characters. -/
theorem like_anywhere_exact_iff :
    (∀ text, like (anywhere part) text ↔ Contains part text) ↔ Literal part := by
  constructor
  · intro h
    by_contra hlit
    refine not_contains_standIn hlit ((h _).mp (like_anywhere.mpr ?_))
    exact ⟨standIn part, List.suffix_rfl, like_standIn part⟩
  · intro hlit text
    exact like_anywhere_iff hlit

end Support
