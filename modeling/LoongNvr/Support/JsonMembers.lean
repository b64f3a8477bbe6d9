import LoongNvr.Support.JsonLexer
import LoongNvr.Support.Decimal
import Mathlib.Data.List.TakeWhile

/-!
# Support — JsonMembers

The members of an object, with their texts between quotation marks as they are.

* `lex_write_of_good`: if the texts are plain, the tokens are those of the members.
* `good_or_valueLength_lt`: if not, what is read for values is shorter than what was written.
* `isBare_of_isNumber`: a number can be told from what is around it.
* `isNumber_decimal`, `intOf_decimal`: an integer that is written in decimal is read again.
-/

namespace JsonText

/-! ### Objects that are written as they are -/

/-- What is written behind a key. -/
inductive Field
  | text (s : List Char)
  | word (w : List Char)
  deriving DecidableEq, Repr

def Field.write : Field → List Char
  | .text s => '"' :: (s ++ ['"'])
  | .word w => w

def Field.length : Field → ℕ
  | .text s => s.length
  | .word _ => 0

def Field.token : Field → Token
  | .text s => .string s
  | .word w => .word w

/-- The members of an object. -/
abbrev Members := List (List Char × Field)

def entry (m : List Char × Field) : List Char := '"' :: (m.1 ++ '"' :: ':' :: m.2.write)

/-- The members that are not the first, and the end. -/
def writeTail (ms : Members) : List Char := ms.flatMap (',' :: entry ·) ++ ['}']

def write : Members → List Char
  | [] => ['{', '}']
  | m :: ms => '{' :: (entry m ++ writeTail ms)

def total : Members → ℕ
  | [] => 0
  | m :: ms => m.2.length + total ms

def entryTokens (m : List Char × Field) : List Token := [.string m.1, .colon, m.2.token]

def tailTokens (ms : Members) : List Token := ms.flatMap (.comma :: entryTokens ·) ++ [.rbrace]

/-- A key that is no word of JSON. -/
structure IsKey (key : List Char) : Prop where
  ne_nil : key ≠ []
  plain : Plain key
  delimiter : ∀ c ∈ key, isDelimiter c = false
  word : isWord key = false

theorem all_not_delimiter {w : List Char} :
    (w.all fun c => !isDelimiter c) = true ↔ ∀ c ∈ w, isDelimiter c = false := by
  simp only [List.all_eq_true, Bool.not_eq_true']

theorem isKey_iff {key : List Char} :
    (key ≠ [] ∧ Plain key ∧ (key.all fun c => !isDelimiter c) = true ∧ isWord key = false) ↔
      IsKey key := by
  rw [all_not_delimiter]
  exact ⟨fun ⟨hne, hplain, hdelimiter, hword⟩ => ⟨hne, hplain, hdelimiter, hword⟩,
    fun h => ⟨h.ne_nil, h.plain, h.delimiter, h.word⟩⟩

instance {key : List Char} : Decidable (IsKey key) := decidable_of_iff _ isKey_iff

/-- A run of characters between two tokens. -/
structure IsBare (w : List Char) : Prop where
  ne_nil : w ≠ []
  delimiter : ∀ c ∈ w, isDelimiter c = false

theorem isBare_iff {w : List Char} :
    (w ≠ [] ∧ (w.all fun c => !isDelimiter c) = true) ↔ IsBare w := by
  rw [all_not_delimiter]
  exact ⟨fun ⟨hne, hdelimiter⟩ => ⟨hne, hdelimiter⟩, fun h => ⟨h.ne_nil, h.delimiter⟩⟩

instance {w : List Char} : Decidable (IsBare w) := decidable_of_iff _ isBare_iff

/-- A field that can be told from what is around it. -/
def Field.Bare : Field → Prop
  | .text _ => True
  | .word w => IsBare w

/-- A field that is read as it is written. -/
def Field.Good : Field → Prop
  | .text s => Plain s
  | .word w => isWord w = true

def Writable (ms : Members) : Prop := ∀ m ∈ ms, IsKey m.1 ∧ m.2.Bare

def Good (ms : Members) : Prop := ∀ m ∈ ms, m.2.Good

variable {ts : List Token} {key w s rest : List Char} {c : Char} {m : Mode} {ms : Members}
  {field : Field}

theorem start_of_not_delimiter (h : isDelimiter c = false) : start c = ([], .word [c]) := by
  simp only [isDelimiter, Bool.or_eq_false_iff, decide_eq_false_iff_not] at h
  obtain ⟨⟨hspace, hpunctuation⟩, hquote⟩ := h
  rw [start, hspace, if_neg Bool.false_ne_true]
  rw [Option.isSome_eq_false_iff, Option.isNone_iff_eq_none] at hpunctuation
  rw [hpunctuation]
  exact if_neg hquote

theorem feed_word (h : ∀ c ∈ rest, isDelimiter c = false) :
    feed (.word w) rest = some ([], .word (w ++ rest)) := by
  induction rest generalizing w with
  | nil => rw [feed, List.append_nil]
  | cons c rest ih =>
      obtain ⟨hc, hrest⟩ := List.forall_mem_cons.mp h
      rw [feed, step, hc, if_neg Bool.false_ne_true, Option.bind_some, ih hrest, List.append_assoc]
      rfl

theorem feed_bare (h : IsBare w) : feed .between w = some ([], .word w) := by
  obtain ⟨hne, hdelimiter⟩ := h
  cases w with
  | nil => exact absurd rfl hne
  | cons c w =>
      obtain ⟨hc, hw⟩ := List.forall_mem_cons.mp hdelimiter
      rw [feed, step, start_of_not_delimiter hc, Option.bind_some, feed_word hw]
      rfl

/-- A word and what ends it. -/
theorem run_word (hc : isDelimiter c = true) :
    run (.word w) (c :: rest) =
      if isWord w then (run .between (c :: rest)).map (.word w :: ·) else none := by
  rw [run_cons, step, if_pos hc]
  split
  · rw [Option.bind_some, run_cons, step, Option.bind_some]
    cases run (start c).2 rest <;> rfl
  · rfl

theorem run_bare (h : IsBare w) (hc : isDelimiter c = true) :
    run .between (w ++ c :: rest) =
      if isWord w then (run .between (c :: rest)).map (.word w :: ·) else none := by
  rw [run_append, feed_bare h, Option.bind_some, run_word hc]
  split
  · rw [Option.map_map]
    rfl
  · rfl

theorem run_key (h : IsKey key) : run .between (key ++ '"' :: rest) = none := by
  rw [run_bare ⟨h.ne_nil, h.delimiter⟩ rfl, h.word, if_neg Bool.false_ne_true]

/-- After a text that does not end where it should, the next key is no text. -/
theorem run_boundary (h : IsKey key)
    (hrun : run m ('"' :: ',' :: '"' :: (key ++ '"' :: rest)) = some ts) : ∃ s, m = .text s := by
  have hopen : run .between ('"' :: ',' :: '"' :: (key ++ '"' :: rest)) = none := by
    rw [run_of_silent rfl, run_of_silent rfl, run_of_step rfl, run_key h]
    rfl
  cases m with
  | between => rw [hopen] at hrun; cases hrun
  | word w =>
      rw [run_word rfl, hopen] at hrun
      split at hrun <;> cases hrun
  | text s => exact ⟨s, rfl⟩
  | escape s =>
      rw [run_of_silent rfl, run_of_silent rfl, run_of_step rfl, run_key h] at hrun
      cases hrun
  | hex s high digits => cases hrun
  | low s high backslash => cases backslash <;> cases hrun

theorem run_end (hrun : run m ['"', '}'] = some ts) : ∃ s, m = .text s := by
  cases m with
  | between => cases hrun
  | word w =>
      rw [run_word rfl] at hrun
      split at hrun <;> cases hrun
  | text s => exact ⟨s, rfl⟩
  | escape s => cases hrun
  | hex s high digits => cases hrun
  | low s high backslash => cases backslash <;> cases hrun

theorem writeTail_cons (m : List Char × Field) (ms : Members) :
    writeTail (m :: ms) = ',' :: (entry m ++ writeTail ms) := by
  rw [writeTail, List.flatMap_cons, List.append_assoc]
  rfl

/-- A text ends where it should. -/
theorem run_closed (h : Writable ms) (hrun : run m ('"' :: writeTail ms) = some ts) :
    ∃ s, m = .text s := by
  cases ms with
  | nil => exact run_end hrun
  | cons e ms =>
      rw [writeTail_cons, entry, List.cons_append, List.append_assoc, List.cons_append] at hrun
      exact run_boundary (List.forall_mem_cons.mp h).1.1 hrun

theorem exists_delimiter (ms : Members) :
    ∃ c rest, writeTail ms = c :: rest ∧ isDelimiter c = true := by
  cases ms with
  | nil => exact ⟨_, _, rfl, rfl⟩
  | cons e ms => exact ⟨_, _, writeTail_cons e ms, rfl⟩

/-- A member and what follows. -/
theorem run_entry (hkey : IsKey key) (field : Field) :
    run .between (entry (key, field) ++ rest) =
      (run .between (field.write ++ rest)).map ([.string key, .colon] ++ ·) := by
  have htext : run (.text key) ('"' :: ':' :: (field.write ++ rest)) =
      (run .between (field.write ++ rest)).map ([.string key, .colon] ++ ·) := by
    rw [run_of_step rfl, run_of_step rfl, Option.map_map]
    rfl
  rw [entry, List.cons_append, run_of_silent rfl, List.append_assoc, run_append,
    feed_plain hkey.plain, Option.bind_some, List.nil_append, List.cons_append, List.cons_append,
    htext, Option.map_map]
  rfl

/-! ### Texts and words -/

/-- The texts of an object and their keys. -/
def textsOf (ms : Members) : List (List Char × List Char) :=
  ms.filterMap fun m => match m.2 with
    | .text s => some (m.1, s)
    | .word _ => none

/-- The words of the object are words of JSON. -/
def Words (ms : Members) : Prop := ∀ m ∈ ms, ∀ w, m.2 = .word w → isWord w = true

theorem good_iff (hwords : Words ms) : Good ms ↔ ∀ t ∈ textsOf ms, Plain t.2 := by
  constructor
  · intro hgood t ht
    obtain ⟨m, hm, heq⟩ := List.mem_filterMap.mp ht
    have hfield := hgood m hm
    split at heq
    · next s hs =>
        obtain rfl := Option.some.inj heq
        rw [hs] at hfield
        exact hfield
    · cases heq
  · intro hplain m hm
    cases hfield : m.2 with
    | text s => exact hplain (m.1, s) (List.mem_filterMap.mpr ⟨m, hm, by rw [hfield]⟩)
    | word w => exact hwords m hm w hfield

theorem mem_textsOf {m : List Char × Field} (hm : m ∈ ms) {s : List Char} (hs : m.2 = .text s) :
    (m.1, s) ∈ textsOf ms :=
  List.mem_filterMap.mpr ⟨m, hm, by rw [hs]⟩

/-! ### How much of an object is values -/

/-- The length of the texts that are no keys. -/
def valueLength : List Token → ℕ
  | .string _ :: .colon :: ts => valueLength ts
  | t :: ts => t.length + valueLength ts
  | [] => 0

theorem valueLength_cons_le (t : Token) (ts : List Token) :
    valueLength (t :: ts) ≤ t.length + valueLength ts := by
  cases t with
  | string s =>
      cases ts with
      | nil => exact le_rfl
      | cons t' ts =>
          cases t' with
          | colon =>
              have hcolon : valueLength (.colon :: ts) = valueLength ts := Nat.zero_add _
              rw [hcolon]
              exact Nat.le_add_left _ _
          | _ => exact le_rfl
  | _ => exact le_rfl

theorem valueLength_append_le (ts ts' : List Token) :
    valueLength (ts ++ ts') ≤ textLength ts + valueLength ts' := by
  induction ts with
  | nil => exact (Nat.zero_add _).ge
  | cons t ts ih =>
      have hcons := valueLength_cons_le t (ts ++ ts')
      rw [List.cons_append, textLength_cons]
      omega

/-- A field and what follows: it is read as it was written, or what is read is shorter. -/
theorem run_field (h : Writable ms) (hfield : field.Bare)
    (hrun : run .between (field.write ++ writeTail ms) = some ts) :
    ∃ ts', run .between (writeTail ms) = some ts' ∧
      ((field.Good ∧ ts = field.token :: ts') ∨
        valueLength ts < field.length + valueLength ts') := by
  cases field with
  | word w =>
      obtain ⟨c, rest, hc, hdelimiter⟩ := exists_delimiter ms
      rw [hc] at hrun ⊢
      rw [Field.write, run_bare hfield hdelimiter] at hrun
      split at hrun
      · next hword =>
          obtain ⟨ts', htail, rfl⟩ := Option.map_eq_some_iff.mp hrun
          exact ⟨ts', htail, .inl ⟨hword, rfl⟩⟩
      · cases hrun
  | text s =>
      rw [Field.write, List.cons_append, run_of_silent rfl, List.append_assoc, run_append] at hrun
      obtain ⟨⟨ts₁, m⟩, hfeed, hmap⟩ := Option.bind_eq_some_iff.mp hrun
      obtain ⟨ts₂, hclosed, heq⟩ := Option.map_eq_some_iff.mp hmap
      obtain ⟨s', rfl⟩ := run_closed h hclosed
      obtain ⟨ts', htail, rfl⟩ := (run_of_token rfl).mp hclosed
      obtain rfl : ts₁ ++ .string s' :: ts' = ts := heq
      refine ⟨ts', htail, ?_⟩
      rcases feed_text hfeed with ⟨hplain, rfl, hm⟩ | hlt
      · obtain rfl := Mode.text.inj hm
        exact .inl ⟨hplain, rfl⟩
      · have hvalue := valueLength_append_le ts₁ (.string s' :: ts')
        have hstring := valueLength_cons_le (.string s') ts'
        simp only [Mode.held, List.length_nil, Nat.zero_add] at hlt
        simp only [Token.length] at hstring
        exact .inr (by rw [Field.length]; omega)

theorem valueLength_entryTokens (m : List Char × Field) (hts : ts.head? ≠ some .colon) :
    valueLength (entryTokens m ++ ts) = m.2.length + valueLength ts := by
  obtain ⟨key, field⟩ := m
  have hkey : valueLength (entryTokens (key, field) ++ ts) = valueLength (field.token :: ts) := rfl
  rw [hkey]
  cases field with
  | word w => rfl
  | text s =>
      cases ts with
      | nil => rfl
      | cons t ts =>
          cases t with
          | colon => exact absurd rfl hts
          | _ => rfl

theorem tailTokens_cons (m : List Char × Field) (ms : Members) :
    tailTokens (m :: ms) = .comma :: (entryTokens m ++ tailTokens ms) := by
  rw [tailTokens, List.flatMap_cons, List.append_assoc]
  rfl

theorem head?_tailTokens (ms : Members) : (tailTokens ms).head? ≠ some .colon := by
  cases ms with
  | nil => simp [tailTokens]
  | cons m ms => simp [tailTokens_cons]

theorem valueLength_tailTokens (ms : Members) : valueLength (tailTokens ms) = total ms := by
  induction ms with
  | nil => rfl
  | cons m ms ih =>
      have hcomma : valueLength (.comma :: (entryTokens m ++ tailTokens ms)) =
          valueLength (entryTokens m ++ tailTokens ms) := Nat.zero_add _
      rw [tailTokens_cons, hcomma, valueLength_entryTokens m (head?_tailTokens ms), ih]
      rfl

/-- **The rest of an object**: it is read as it was written, or its values are shorter. -/
theorem run_writeTail (h : Writable ms) (hrun : run .between (writeTail ms) = some ts) :
    (Good ms ∧ ts = tailTokens ms) ∨ valueLength ts < total ms := by
  induction ms generalizing ts with
  | nil =>
      obtain rfl : [Token.rbrace] = ts := Option.some.inj hrun
      exact .inl ⟨List.forall_mem_nil _, rfl⟩
  | cons e ms ih =>
      obtain ⟨key, field⟩ := e
      obtain ⟨⟨hkey, hfield⟩, hms⟩ := List.forall_mem_cons.mp h
      rw [writeTail_cons, run_of_step rfl, run_entry hkey, Option.map_map] at hrun
      obtain ⟨ts₁, hrun₁, heq⟩ := Option.map_eq_some_iff.mp hrun
      obtain rfl : .comma :: .string key :: .colon :: ts₁ = ts := heq
      have hvalue : valueLength (.comma :: .string key :: .colon :: ts₁) = valueLength ts₁ :=
        Nat.zero_add _
      have htotal : total ((key, field) :: ms) = field.length + total ms := rfl
      have hbare : field.Bare := hfield
      obtain ⟨ts₂, htail, hgood⟩ := run_field hms hbare hrun₁
      rcases ih hms htail with ⟨hrest, rfl⟩ | hlt
      · rcases hgood with ⟨hgood, rfl⟩ | hlt
        · refine .inl ⟨List.forall_mem_cons.mpr ⟨hgood, hrest⟩, ?_⟩
          rw [tailTokens_cons]
          rfl
        · rw [valueLength_tailTokens] at hlt
          exact .inr (by omega)
      · refine .inr ?_
        rcases hgood with ⟨-, rfl⟩ | hlt'
        · have hle : valueLength (field.token :: ts₂) ≤ field.length + valueLength ts₂ := by
            cases field <;> exact valueLength_cons_le _ _
          omega
        · omega

/-- An object that is written as it is meant to be read has the tokens of its members. -/
theorem run_writeTail_of_good (h : Writable ms) (hgood : Good ms) :
    run .between (writeTail ms) = some (tailTokens ms) := by
  induction ms with
  | nil => rfl
  | cons e ms ih =>
      obtain ⟨key, field⟩ := e
      obtain ⟨⟨hkey, hfield⟩, hms⟩ := List.forall_mem_cons.mp h
      obtain ⟨hfieldGood, hmsGood⟩ := List.forall_mem_cons.mp hgood
      have htail := ih hms hmsGood
      have hrun : run .between (field.write ++ writeTail ms) =
          some (field.token :: tailTokens ms) := by
        cases field with
        | word w =>
            have hword : isWord w = true := hfieldGood
            obtain ⟨c, rest, hc, hdelimiter⟩ := exists_delimiter ms
            rw [hc] at htail ⊢
            rw [Field.write, run_bare hfield hdelimiter, if_pos hword, htail]
            rfl
        | text s =>
            have hplain : Plain s := hfieldGood
            rw [Field.write, List.cons_append, run_of_silent rfl, List.append_assoc, run_append,
              feed_plain hplain, Option.bind_some, List.nil_append, List.singleton_append,
              run_of_step rfl, htail]
            rfl
      rw [writeTail_cons, run_of_step rfl, run_entry hkey, hrun, tailTokens_cons]
      rfl

/-- The tokens of an object. -/
def writeTokens : Members → List Token
  | [] => [.lbrace, .rbrace]
  | m :: ms => .lbrace :: (entryTokens m ++ tailTokens ms)

/-- The words of an object are those of its members. -/
theorem mem_writeTokens {w : List Char} (h : .word w ∈ writeTokens ms) :
    ∃ m ∈ ms, m.2 = .word w := by
  have hentry : ∀ {m : List Char × Field}, Token.word w ∈ entryTokens m → m.2 = .word w := by
    intro m hm
    simp only [entryTokens, List.mem_cons, reduceCtorEq, List.not_mem_nil, or_false, false_or] at hm
    cases hfield : m.2 with
    | text s => rw [hfield] at hm; cases hm
    | word w' => rw [hfield] at hm; rw [Token.word.inj hm]
  have htail : ∀ {ms : Members}, Token.word w ∈ tailTokens ms → ∃ m ∈ ms, m.2 = .word w := by
    intro ms hms
    simp only [tailTokens, List.mem_append, List.mem_flatMap, List.mem_cons, reduceCtorEq,
      List.not_mem_nil, or_false, false_or] at hms
    obtain ⟨m, hm, hword⟩ := hms
    exact ⟨m, hm, hentry hword⟩
  cases ms with
  | nil => simp [writeTokens] at h
  | cons m ms =>
      simp only [writeTokens, List.mem_cons, reduceCtorEq, List.mem_append, false_or] at h
      rcases h with h | h
      · exact ⟨m, List.mem_cons_self, hentry h⟩
      · obtain ⟨m', hm', hword⟩ := htail h
        exact ⟨m', List.mem_cons_of_mem _ hm', hword⟩

/-- The first member is like the others. -/
theorem lex_write_cons (e : List Char × Field) (ms : Members) :
    lex (write (e :: ms)) = (run .between (writeTail (e :: ms))).map (.lbrace :: ·.tail) := by
  have hcomma : run .between (writeTail (e :: ms)) =
      (run .between (entry e ++ writeTail ms)).map ([.comma] ++ ·) := by
    rw [writeTail_cons, run_of_step rfl]
  have hbrace : lex (write (e :: ms)) =
      (run .between (entry e ++ writeTail ms)).map ([.lbrace] ++ ·) := by
    rw [lex, write, run_of_step rfl]
  rw [hbrace, hcomma, Option.map_map]
  rfl

theorem lex_write_of_good (h : Writable ms) (hgood : Good ms) :
    lex (write ms) = some (writeTokens ms) := by
  cases ms with
  | nil => rfl
  | cons e ms =>
      rw [lex_write_cons, run_writeTail_of_good h hgood, tailTokens_cons]
      rfl

theorem good_or_valueLength_lt (h : Writable ms) (hlex : lex (write ms) = some ts) :
    Good ms ∨ valueLength ts < total ms := by
  cases ms with
  | nil => exact .inl (List.forall_mem_nil _)
  | cons e ms =>
      rw [lex_write_cons] at hlex
      obtain ⟨ts', hrun, rfl⟩ := Option.map_eq_some_iff.mp hlex
      rcases run_writeTail h hrun with ⟨hgood, -⟩ | hlt
      · exact .inl hgood
      · refine .inr (lt_of_le_of_lt ?_ hlt)
        have hbrace : valueLength (.lbrace :: ts'.tail) = valueLength ts'.tail := Nat.zero_add _
        rw [hbrace]
        rw [writeTail_cons, run_of_step rfl] at hrun
        obtain ⟨ts₁, -, rfl⟩ := Option.map_eq_some_iff.mp hrun
        exact (Nat.zero_add _).ge

end JsonText

/-! ### Numbers

The numbers of a JSON text, and the integers among them.
-/

namespace JsonText
open Support

variable {w : List Char} {c : Char}

/-- A number that is not 0 does not begin with 0. -/
theorem exists_toDigits {n : ℕ} (h : 0 < n) :
    ∃ c cs, Nat.toDigits 10 n = c :: cs ∧ c ≠ '0' := by
  induction n using Nat.strongRecOn with
  | ind n ih =>
      rcases Nat.lt_or_ge n 10 with hlt | hge
      · refine ⟨n.digitChar, [], Nat.toDigits_of_lt_base hlt, ?_⟩
        rw [ne_eq, Nat.digitChar_eq_zero]
        omega
      · obtain ⟨c, cs, hdigits, hc⟩ := ih (n / 10) (Nat.div_lt_self h (by decide)) (by omega)
        exact ⟨c, cs ++ [(n % 10).digitChar],
          by rw [Nat.toDigits_of_base_le (by decide) hge, hdigits, List.cons_append], hc⟩

theorem isUnsigned_toDigits (n : ℕ) : isUnsigned (Nat.toDigits 10 n) = true := by
  rcases Nat.eq_zero_or_pos n with rfl | hpos
  · rfl
  · obtain ⟨c, cs, hdigits, hc⟩ := exists_toDigits hpos
    have hall : ∀ d ∈ c :: cs, d.isDigit = true :=
      fun d hd => isDigit_of_mem_toDigits (hdigits ▸ hd)
    obtain ⟨hdigit, hcs⟩ := List.forall_mem_cons.mp hall
    rw [hdigits, isUnsigned, if_neg hc, hdigit, List.dropWhile_eq_nil_iff.mpr hcs]
    rfl

theorem isNumber_of_head?_ne (h : w.head? ≠ some '-') : isNumber w = isUnsigned w := by
  unfold isNumber
  split
  · exact absurd rfl h
  · rfl

theorem isNumber_decimal (n : ℤ) : isNumber (decimal n) = true := by
  rw [decimal]
  split
  · exact isUnsigned_toDigits _
  · rw [isNumber_of_head?_ne, isUnsigned_toDigits]
    intro hhead
    exact absurd (isDigit_of_mem_toDigits (List.mem_of_head? hhead)) (by decide)

theorem mem_of_isDelimiter (h : isDelimiter c = true) :
    c ∈ [' ', '\t', '\n', '\r', '{', '}', '[', ']', ':', ',', '"'] := by
  simp only [isDelimiter, Bool.or_eq_true, decide_eq_true_eq] at h
  rcases h with (hspace | hpunctuation) | rfl
  · simp only [isSpace, decide_eq_true_eq] at hspace
    rcases hspace with rfl | rfl | rfl | rfl <;> decide
  · unfold punctuation at hpunctuation
    split at hpunctuation
    · decide
    · decide
    · decide
    · decide
    · decide
    · decide
    · cases hpunctuation
  · decide

theorem isDelimiter_of_isDigit (h : c.isDigit = true) : isDelimiter c = false := by
  have hnone : [' ', '\t', '\n', '\r', '{', '}', '[', ']', ':', ',', '"'].all
      (fun d => !d.isDigit) = true := by decide
  refine Bool.eq_false_iff.mpr fun hc => ?_
  have hdigit := List.all_eq_true.mp hnone c (mem_of_isDelimiter hc)
  rw [h] at hdigit
  cases hdigit

theorem not_delimiter_of_isExponent (h : isExponent w = true) :
    ∀ c ∈ w, isDelimiter c = false := by
  cases w with
  | nil => exact List.forall_mem_nil _
  | cons e cs =>
      simp only [isExponent, Bool.and_eq_true, decide_eq_true_eq, List.all_eq_true] at h
      obtain ⟨⟨he, -⟩, hdigits⟩ := h
      refine List.forall_mem_cons.mpr ⟨by rcases he with rfl | rfl <;> rfl, fun c hc => ?_⟩
      split at hdigits
      · next hsign =>
          cases cs with
          | nil => cases hc
          | cons d cs =>
              rcases List.mem_cons.mp hc with rfl | hc
              · rcases hsign with hsign | hsign <;> obtain rfl := Option.some.inj hsign <;> rfl
              · exact isDelimiter_of_isDigit (hdigits c hc)
      · exact isDelimiter_of_isDigit (hdigits c hc)

/-- Digits and what follows them. -/
theorem not_delimiter_of_dropWhile (h : ∀ c ∈ w.dropWhile Char.isDigit, isDelimiter c = false) :
    ∀ c ∈ w, isDelimiter c = false := by
  intro c hc
  rw [← List.takeWhile_append_dropWhile (p := Char.isDigit) (l := w)] at hc
  rcases List.mem_append.mp hc with hc | hc
  · exact isDelimiter_of_isDigit (List.mem_takeWhile_imp hc)
  · exact h c hc

theorem not_delimiter_of_isFraction (h : isFraction w = true) :
    ∀ c ∈ w, isDelimiter c = false := by
  unfold isFraction at h
  split at h
  · next d cs =>
      obtain ⟨hd, hexponent⟩ := (Bool.and_eq_true _ _).mp h
      refine List.forall_mem_cons.mpr ⟨rfl, List.forall_mem_cons.mpr ⟨?_, ?_⟩⟩
      · exact isDelimiter_of_isDigit hd
      · exact not_delimiter_of_dropWhile (not_delimiter_of_isExponent hexponent)
  · exact not_delimiter_of_isExponent h

theorem isBare_of_isUnsigned (h : isUnsigned w = true) : IsBare w := by
  cases w with
  | nil => cases h
  | cons c cs =>
      refine ⟨List.cons_ne_nil _ _, ?_⟩
      rw [isUnsigned] at h
      split at h
      · next hc =>
          exact List.forall_mem_cons.mpr ⟨by rw [hc]; rfl, not_delimiter_of_isFraction h⟩
      · obtain ⟨hc, hfraction⟩ := (Bool.and_eq_true _ _).mp h
        exact List.forall_mem_cons.mpr ⟨isDelimiter_of_isDigit hc,
          not_delimiter_of_dropWhile (not_delimiter_of_isFraction hfraction)⟩

/-- A number has no delimiter in it. -/
theorem isBare_of_isNumber (h : isNumber w = true) : IsBare w := by
  unfold isNumber at h
  split at h
  · exact ⟨List.cons_ne_nil _ _,
      List.forall_mem_cons.mpr ⟨rfl, (isBare_of_isUnsigned h).delimiter⟩⟩
  · exact isBare_of_isUnsigned h

theorem isWord_of_isNumber (h : isNumber w = true) : isWord w = true := by
  simp only [isWord, h, Bool.true_or]

/-! ### Integers -/

/-- What an integer is. -/
def isInteger (w : List Char) : Bool := isNumber w && w.all fun c => c.isDigit || c = '-'

/-- The value of an integer. -/
def intOf (w : List Char) : ℤ :=
  if w.head? = some '-' then -(Nat.ofDigitChars 10 w.tail 0 : ℤ) else Nat.ofDigitChars 10 w 0

theorem isInteger_decimal (n : ℤ) : isInteger (decimal n) = true := by
  have hall : (decimal n).all (fun c => c.isDigit || c = '-') = true := by
    refine List.all_eq_true.mpr fun c hc => ?_
    rcases mem_padded (List.mem_append_right _ hc : c ∈ padded 0 n) with hdigit | rfl
    · rw [hdigit, Bool.true_or]
    · rfl
  rw [isInteger, isNumber_decimal, hall, Bool.and_true]

theorem intOf_decimal (n : ℤ) : intOf (decimal n) = n := by
  rw [decimal]
  split
  · next hneg =>
      rw [intOf, List.head?_cons, if_pos rfl, List.tail_cons, Nat.ofDigitChars_ten_toDigits]
      omega
  · next hpos =>
      have hhead : (Nat.toDigits 10 n.natAbs).head? ≠ some '-' := fun hhead =>
        absurd (isDigit_of_mem_toDigits (List.mem_of_head? hhead)) (by decide)
      rw [intOf, if_neg hhead, Nat.ofDigitChars_ten_toDigits]
      omega

end JsonText
