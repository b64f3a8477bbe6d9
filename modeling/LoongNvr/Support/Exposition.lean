import LoongNvr.Support.JsonLexer
import Mathlib.Data.List.Basic
import Mathlib.Data.List.TakeWhile

/-!
# Support — Exposition

The text format in which a process shows its metrics: a line for each sample, with labels whose
values are in quotation marks, and lines that say what a metric is (`HELP`) and of which type it is
(`TYPE`).

* `parse`: the lines of a text, or `none` where it is no text of the format.
* `Valid`: what the lines must be, taken together.
* `parse_text`: lines that are written with their label values escaped are read back.
* `clean_of_parse`: label values that are not escaped are read back only if there is nothing to
  escape.
* `valid_blocks_iff`, `reads_blocks_iff`: metrics that are written one by one, each with its two
  lines in front, are valid exactly where no name is there twice, and read back exactly where
  besides nothing has to be escaped.
-/

namespace Support.Exposition

/-- A sample: the metric, the labels and the value as it is written. -/
structure Sample where
  name : List Char
  labels : List (List Char × List Char)
  value : List Char
  deriving DecidableEq, Repr

/-- A line; a comment and an empty line are `other`. -/
inductive Line
  | help (name doc : List Char)
  | type (name kind : List Char)
  | sample (s : Sample)
  | other
  deriving DecidableEq, Repr

/-! ### Reading -/

def isBlank (c : Char) : Bool := c = ' ' ∨ c = '\t'

def skip (cs : List Char) : List Char := cs.dropWhile isBlank

def isLabelChar (c : Char) : Bool := c.isAlphanum || c = '_'

def isNameChar (c : Char) : Bool := isLabelChar c || c = ':'

/-- The name of a metric does not begin with a digit. -/
def isName : List Char → Bool
  | [] => false
  | c :: cs => !c.isDigit && isNameChar c && cs.all isNameChar

def isLabelName : List Char → Bool
  | [] => false
  | c :: cs => !c.isDigit && isLabelChar c && cs.all isLabelChar

def isValue (w : List Char) : Bool :=
  JsonText.isNumber w || ["NaN".toList, "+Inf".toList, "-Inf".toList].contains w

/-- A time in milliseconds. -/
def isStamp : List Char → Bool
  | '-' :: cs => !cs.isEmpty && cs.all Char.isDigit
  | cs => !cs.isEmpty && cs.all Char.isDigit

/-- The front of a text in which a character has the property, and the rest. -/
def token (p : Char → Bool) (cs : List Char) : List Char × List Char :=
  (cs.takeWhile p, cs.dropWhile p)

/-- The words between the blanks. -/
def words (cs : List Char) : List (List Char) := (cs.splitOnP isBlank).filter (· ≠ [])

/-- What a backslash and the character stand for. -/
def unescape (c : Char) : Option Char :=
  if c = '\\' then some '\\' else if c = '"' then some '"' else if c = 'n' then some '\n' else none

/-- A label value behind its first quotation mark, and what is behind the second. -/
def readValue : List Char → Option (List Char × List Char)
  | [] => none
  | c :: cs =>
      if c = '"' then some ([], cs)
      else if c = '\\' then
        match cs with
        | [] => none
        | d :: cs => (unescape d).bind fun d => (readValue cs).map fun r => (d :: r.1, r.2)
      else (readValue cs).map fun r => (c :: r.1, r.2)

/-- A label, and what is behind it. -/
def readLabel (cs : List Char) : Option ((List Char × List Char) × List Char) :=
  let (name, cs) := token isLabelChar (skip cs)
  match skip cs with
  | '=' :: cs =>
      match skip cs with
      | '"' :: cs =>
          if isLabelName name then (readValue cs).map fun r => ((name, r.1), r.2) else none
      | _ => none
  | _ => none

/-- The labels behind `{`, at most as many, and what is behind `}`. -/
def readLabels : ℕ → List Char → Option (List (List Char × List Char) × List Char)
  | 0, _ => none
  | n + 1, cs =>
      if (skip cs).head? = some '}' then some ([], (skip cs).tail)
      else
        match readLabel cs with
        | none => none
        | some (label, cs) =>
            match skip cs with
            | '}' :: cs => some ([label], cs)
            | ',' :: cs => (readLabels n cs).map fun r => (label :: r.1, r.2)
            | _ => none

/-- The value, and a time or none behind it. -/
def readNumber (cs : List Char) : Option (List Char) :=
  match words cs with
  | [value] => if isValue value then some value else none
  | [value, stamp] => if isValue value && isStamp stamp then some value else none
  | _ => none

def readSample (cs : List Char) : Option Sample :=
  let (name, cs) := token isNameChar cs
  if isName name then
    match skip cs with
    | '{' :: cs =>
        (readLabels (cs.length + 1) cs).bind fun (labels, cs) =>
          (readNumber cs).map fun value => ⟨name, labels, value⟩
    | cs => (readNumber cs).map fun value => ⟨name, [], value⟩
  else none

def kinds : List (List Char) :=
  ["counter".toList, "gauge".toList, "histogram".toList, "summary".toList, "untyped".toList]

instance (kind : List Char) : Decidable (kind ∈ kinds) := inferInstance

/-- What is behind `#`. -/
def readComment (cs : List Char) : Option Line :=
  let (word, cs) := token (!isBlank ·) (skip cs)
  let (name, cs) := token (!isBlank ·) (skip cs)
  if word = "HELP".toList then
    if isName name then some (.help name (skip cs)) else none
  else if word = "TYPE".toList then
    if isName name ∧ skip cs ∈ kinds then some (.type name (skip cs)) else none
  else some .other

def readLine (l : List Char) : Option Line :=
  match skip l with
  | [] => some .other
  | '#' :: cs => readComment cs
  | cs => (readSample cs).map .sample

/-- The lines of a text; the last one must be ended too. -/
def endedLines : List Char → Option (List (List Char))
  | [] => some []
  | c :: cs =>
      match endedLines cs with
      | none => none
      | some ls =>
          if c = '\n' then some ([] :: ls)
          else
            match ls with
            | [] => none
            | l :: ls => some ((c :: l) :: ls)

/-- **The lines of a text** in the format. -/
def parse (text : List Char) : Option (List Line) := (endedLines text).bind (·.mapM readLine)

/-! ### Writing -/

def escapeChar (c : Char) : List Char :=
  if c = '\\' then ['\\', '\\'] else if c = '"' then ['\\', '"']
  else if c = '\n' then ['\\', 'n'] else [c]

/-- A label value as it must be written. -/
def escape (v : List Char) : List Char := v.flatMap escapeChar

def labelText (quote : List Char → List Char) (label : List Char × List Char) : List Char :=
  label.1 ++ '=' :: '"' :: (quote label.2 ++ ['"'])

/-- Labels with commas between them, and what is behind them. -/
def labelsText (quote : List Char → List Char) (rest : List Char) :
    List (List Char × List Char) → List Char
  | [] => rest
  | [label] => labelText quote label ++ rest
  | label :: labels => labelText quote label ++ ',' :: labelsText quote rest labels

def sampleText (quote : List Char → List Char) (s : Sample) : List Char :=
  if s.labels = [] then s.name ++ ' ' :: s.value
  else s.name ++ '{' :: labelsText quote ('}' :: ' ' :: s.value) s.labels

def lineText (quote : List Char → List Char) : Line → List Char
  | .help name doc => "# HELP ".toList ++ name ++ ' ' :: doc
  | .type name kind => "# TYPE ".toList ++ name ++ ' ' :: kind
  | .sample s => sampleText quote s
  | .other => []

/-- The text of some lines, their label values written by `quote`. -/
def text (quote : List Char → List Char) (lines : List Line) : List Char :=
  lines.flatMap fun line => lineText quote line ++ ['\n']

/-- There is nothing to escape. -/
def Clean (v : List Char) : Prop := ∀ c ∈ v, c ≠ '\\' ∧ c ≠ '"' ∧ c ≠ '\n'

instance (v : List Char) : Decidable (Clean v) := inferInstanceAs (Decidable (∀ _ ∈ v, _))

/-- A sample whose names and value are ones. -/
structure ProperSample (s : Sample) : Prop where
  name : isName s.name = true
  labels : ∀ label ∈ s.labels, isLabelName label.1 = true
  value : isValue s.value = true
  noBlank : ∀ c ∈ s.value, isBlank c = false ∧ c ≠ '\n' ∧ c ≠ '"'

/-- A line that can be written. -/
def Proper : Line → Prop
  | .help name doc => isName name = true ∧ '\n' ∉ doc ∧ ∀ c ∈ doc.head?, isBlank c = false
  | .type name kind => isName name = true ∧ kind ∈ kinds
  | .sample s => ProperSample s
  | .other => True

/-! ### Characters of names -/

theorem escape_of_clean {v : List Char} (h : Clean v) : escape v = v := by
  induction v with
  | nil => rfl
  | cons c v ih =>
      obtain ⟨hback, hquote, hline⟩ := h c List.mem_cons_self
      have hv : Clean v := fun d hd => h d (List.mem_cons_of_mem _ hd)
      rw [escape, List.flatMap_cons, ← escape, ih hv, escapeChar, if_neg hback, if_neg hquote,
        if_neg hline]
      rfl

theorem not_blank_of_nameChar {c : Char} (h : isNameChar c = true) :
    isBlank c = false ∧ c ≠ '\n' ∧ c ≠ '{' ∧ c ≠ '#' := by
  refine ⟨?_, ?_, ?_, ?_⟩
  · rw [isBlank, decide_eq_false_iff_not]
    rintro (rfl | rfl) <;> exact absurd h (by decide)
  all_goals
    rintro rfl
    exact absurd h (by decide)

theorem isNameChar_of_isName {name : List Char} (h : isName name = true) :
    name ≠ [] ∧ ∀ c ∈ name, isNameChar c = true := by
  cases name with
  | nil => cases h
  | cons c cs =>
      simp only [isName, Bool.and_eq_true, List.all_eq_true] at h
      refine ⟨List.cons_ne_nil _ _, fun d hd => ?_⟩
      rcases List.mem_cons.mp hd with rfl | hd
      · exact h.1.2
      · exact h.2 d hd

theorem isLabelChar_of_isLabelName {name : List Char} (h : isLabelName name = true) :
    name ≠ [] ∧ ∀ c ∈ name, isLabelChar c = true := by
  cases name with
  | nil => cases h
  | cons c cs =>
      simp only [isLabelName, Bool.and_eq_true, List.all_eq_true] at h
      refine ⟨List.cons_ne_nil _ _, fun d hd => ?_⟩
      rcases List.mem_cons.mp hd with rfl | hd
      · exact h.1.2
      · exact h.2 d hd

theorem isNameChar_of_isLabelChar {c : Char} (h : isLabelChar c = true) : isNameChar c = true := by
  rw [isNameChar, h, Bool.true_or]

/-- A token is read up to the first character of another kind. -/
theorem token_append {p : Char → Bool} {w rest : List Char} (hw : ∀ c ∈ w, p c = true)
    (hrest : ∀ c ∈ rest.head?, p c = false) : token p (w ++ rest) = (w, rest) := by
  rw [token, List.takeWhile_append_of_pos hw, List.dropWhile_append_of_pos hw]
  cases rest with
  | nil => simp
  | cons c rest =>
      have hc := hrest c rfl
      rw [List.takeWhile_cons_of_neg (by simp [hc]), List.dropWhile_cons_of_neg (by simp [hc]),
        List.append_nil]

/-- Nothing is skipped in front of another character. -/
theorem skip_cons {c : Char} (h : isBlank c = false) (cs : List Char) : skip (c :: cs) = c :: cs :=
  List.dropWhile_cons_of_neg (by simp [h])

theorem skip_eq_self {cs : List Char} (h : ∀ c ∈ cs.head?, isBlank c = false) : skip cs = cs := by
  cases cs with
  | nil => rfl
  | cons c cs => exact skip_cons (h c rfl) cs

theorem skip_blank (cs : List Char) : skip (' ' :: cs) = skip cs := rfl

/-! ### A label value -/

theorem readValue_quote (cs : List Char) : readValue ('"' :: cs) = some ([], cs) := by
  rw [readValue.eq_def]
  rfl

theorem readValue_escaped (d : Char) (cs : List Char) :
    readValue ('\\' :: d :: cs) =
      (unescape d).bind fun d => (readValue cs).map fun r => (d :: r.1, r.2) := by
  rw [readValue.eq_def]
  rfl

theorem readValue_plain {c : Char} (hquote : c ≠ '"') (hback : c ≠ '\\') (cs : List Char) :
    readValue (c :: cs) = (readValue cs).map fun r => (c :: r.1, r.2) := by
  rw [readValue.eq_def]
  exact (if_neg hquote).trans (if_neg hback)

/-- **An escaped value is read back.** -/
theorem readValue_escape (v rest : List Char) :
    readValue (escape v ++ '"' :: rest) = some (v, rest) := by
  induction v with
  | nil => exact readValue_quote rest
  | cons c v ih =>
      rw [escape, List.flatMap_cons, ← escape, List.append_assoc, escapeChar]
      split
      · next h => simp [readValue_escaped, unescape, ih, h]
      · next hback =>
          split
          · next h => simp [readValue_escaped, unescape, ih, h]
          · next hquote =>
              split
              · next h => simp [readValue_escaped, unescape, ih, h]
              · simp [readValue_plain hquote hback, ih]

/-- Without a second quotation mark no value is read. -/
theorem readValue_eq_none : ∀ {cs : List Char}, '"' ∉ cs → readValue cs = none
  | [], _ => rfl
  | [c], h => by
      by_cases hback : c = '\\'
      · subst hback
        rfl
      · rw [readValue_plain (fun e => h (e ▸ List.mem_cons_self)) hback]
        rfl
  | c :: d :: cs, h => by
      have hquote : c ≠ '"' := fun e => h (e ▸ List.mem_cons_self)
      have hrest : '"' ∉ d :: cs := fun hmem => h (List.mem_cons_of_mem _ hmem)
      by_cases hback : c = '\\'
      · rw [hback, readValue_escaped,
          readValue_eq_none fun hmem => hrest (List.mem_cons_of_mem _ hmem)]
        cases unescape d <;> rfl
      · rw [readValue_plain hquote hback, readValue_eq_none hrest]
        rfl

/-- The front of a value that is not escaped, up to the end of the line. -/
def rawFront (v rest : List Char) : List Char := (v ++ '"' :: rest).takeWhile (· ≠ '\n')

/-- What is read of a value that is not escaped is as long as the value only if there is nothing to
escape. -/
theorem length_readValue : ∀ {v rest q r : List Char}, '"' ∉ rest →
    readValue (rawFront v rest) = some (q, r) →
    q.length ≤ v.length ∧ (q.length = v.length → Clean v)
  | [], rest, q, r, _, h => by
      rw [rawFront, List.nil_append, List.takeWhile_cons_of_pos (by decide), readValue_quote] at h
      obtain rfl : [] = q := congrArg Prod.fst (Option.some.inj h)
      exact ⟨le_rfl, fun _ c hc => absurd hc List.not_mem_nil⟩
  | c :: v, rest, q, r, hrest, h => by
      by_cases hline : c = '\n'
      · -- the line ends inside the value
        rw [rawFront, List.cons_append, List.takeWhile_cons_of_neg (by simp [hline])] at h
        cases h
      rw [rawFront, List.cons_append, List.takeWhile_cons_of_pos (by simp [hline])] at h
      by_cases hquote : c = '"'
      · -- the value ends too early
        rw [hquote, readValue_quote] at h
        obtain rfl : [] = q := congrArg Prod.fst (Option.some.inj h)
        exact ⟨Nat.zero_le _, fun e => by cases e⟩
      by_cases hback : c = '\\'
      · subst hback
        match v, h with
        | [], h =>
            -- the quotation mark behind the value is escaped, and there is no other
            have hnone : readValue (rest.takeWhile (· ≠ '\n')) = none :=
              readValue_eq_none fun hmem => hrest (List.takeWhile_subset _ hmem)
            rw [List.nil_append, List.takeWhile_cons_of_pos (by decide), readValue_escaped,
              hnone] at h
            cases h
        | d :: v, h =>
            by_cases hline : d = '\n'
            · rw [List.cons_append, List.takeWhile_cons_of_neg (by simp [hline])] at h
              cases h
            · rw [List.cons_append, List.takeWhile_cons_of_pos (by simp [hline]),
                readValue_escaped] at h
              obtain ⟨_, -, h⟩ := Option.bind_eq_some_iff.mp h
              obtain ⟨⟨q', r'⟩, hread, heq⟩ := Option.map_eq_some_iff.mp h
              obtain rfl := congrArg Prod.fst heq
              obtain ⟨hlength, -⟩ := length_readValue hrest hread
              simp only [List.length_cons] at hlength ⊢
              exact ⟨by omega, fun e => by omega⟩
      · rw [readValue_plain hquote hback] at h
        obtain ⟨⟨q', r'⟩, hread, heq⟩ := Option.map_eq_some_iff.mp h
        obtain rfl : c :: q' = q := congrArg Prod.fst heq
        obtain ⟨hlength, hclean⟩ := length_readValue hrest hread
        refine ⟨Nat.succ_le_succ hlength, fun e d hd => ?_⟩
        rcases List.mem_cons.mp hd with rfl | hd
        · exact ⟨hback, hquote, hline⟩
        · exact hclean (Nat.succ.inj e) d hd

/-! ### Labels -/

section Labels
variable {k : List Char} (hk : isLabelName k = true)
include hk

/-- The first character of a label's name. -/
theorem exists_head_labelName (cs : List Char) :
    ∃ c rest, k ++ cs = c :: rest ∧ isLabelChar c = true := by
  obtain ⟨hne, hall⟩ := isLabelChar_of_isLabelName hk
  cases k with
  | nil => exact absurd rfl hne
  | cons c k => exact ⟨c, k ++ cs, rfl, hall c List.mem_cons_self⟩

theorem skip_labelName (cs : List Char) : skip (k ++ cs) = k ++ cs := by
  obtain ⟨c, rest, heq, hc⟩ := exists_head_labelName hk cs
  rw [heq]
  exact skip_cons (not_blank_of_nameChar (isNameChar_of_isLabelChar hc)).1 rest

theorem readLabel_eq (cs : List Char) :
    readLabel (k ++ '=' :: '"' :: cs) = (readValue cs).map fun r => ((k, r.1), r.2) := by
  have htoken : token isLabelChar (k ++ '=' :: '"' :: cs) = (k, '=' :: '"' :: cs) := by
    refine token_append (isLabelChar_of_isLabelName hk).2 fun c hc => ?_
    obtain rfl : '=' = c := Option.some.inj hc
    decide
  have hequals : skip ('=' :: '"' :: cs) = '=' :: '"' :: cs := skip_cons (by decide) _
  have hquote : skip ('"' :: cs) = '"' :: cs := skip_cons (by decide) _
  simp only [readLabel, skip_labelName hk, htoken, hequals, hquote, hk, if_true]

/-- What is read where a label is. -/
theorem readLabels_eq (n : ℕ) (cs : List Char) :
    readLabels (n + 1) (k ++ '=' :: '"' :: cs) =
      match readValue cs with
      | none => none
      | some (v, cs) =>
          match skip cs with
          | '}' :: cs => some ([(k, v)], cs)
          | ',' :: cs => (readLabels n cs).map fun r => ((k, v) :: r.1, r.2)
          | _ => none := by
  have hhead : (skip (k ++ '=' :: '"' :: cs)).head? ≠ some '}' := by
    rw [skip_labelName hk]
    obtain ⟨c, rest, heq, hc⟩ := exists_head_labelName hk ('=' :: '"' :: cs)
    rw [heq]
    rintro hbrace
    obtain rfl : c = '}' := Option.some.inj hbrace
    exact absurd hc (by decide)
  rw [readLabels, if_neg hhead, readLabel_eq hk]
  cases readValue cs with
  | none => rfl
  | some r => rfl

theorem readLabels_last (n : ℕ) (v rest : List Char) :
    readLabels (n + 1) (labelText escape (k, v) ++ '}' :: rest) = some ([(k, v)], rest) := by
  have htext : labelText escape (k, v) ++ '}' :: rest =
      k ++ '=' :: '"' :: (escape v ++ '"' :: '}' :: rest) := by simp [labelText]
  rw [htext, readLabels_eq hk, readValue_escape]
  rfl

theorem readLabels_front (n : ℕ) (v rest : List Char) :
    readLabels (n + 1) (labelText escape (k, v) ++ ',' :: rest) =
      (readLabels n rest).map fun r => ((k, v) :: r.1, r.2) := by
  have htext : labelText escape (k, v) ++ ',' :: rest =
      k ++ '=' :: '"' :: (escape v ++ '"' :: ',' :: rest) := by simp [labelText]
  rw [htext, readLabels_eq hk, readValue_escape]
  rfl

end Labels

/-- **Labels are read back.** -/
theorem readLabels_labelsText {labels : List (List Char × List Char)} (hne : labels ≠ [])
    (hnames : ∀ label ∈ labels, isLabelName label.1 = true) (rest : List Char) {n : ℕ}
    (hn : labels.length ≤ n) :
    readLabels n (labelsText escape ('}' :: rest) labels) = some (labels, rest) := by
  induction labels generalizing n with
  | nil => exact absurd rfl hne
  | cons label labels ih =>
      obtain ⟨n, rfl⟩ := Nat.exists_eq_add_one_of_ne_zero (Nat.ne_of_gt (Nat.lt_of_lt_of_le
        (Nat.succ_pos _) hn))
      have hk := hnames label List.mem_cons_self
      cases labels with
      | nil => exact readLabels_last hk n label.2 rest
      | cons next labels =>
          rw [labelsText, readLabels_front hk n label.2,
            ih (List.cons_ne_nil _ _) (fun l hl => hnames l (List.mem_cons_of_mem _ hl))
              (Nat.le_of_succ_le_succ hn)]
          · rfl
          · simp

/-- Each label takes room. -/
theorem length_labelsText (quote : List Char → List Char) (rest : List Char)
    (labels : List (List Char × List Char)) :
    labels.length ≤ (labelsText quote rest labels).length := by
  induction labels with
  | nil => exact Nat.zero_le _
  | cons label labels ih =>
      cases labels with
      | nil => simp [labelsText, labelText]; omega
      | cons next labels =>
          simp only [labelsText, labelText, List.length_append, List.length_cons] at ih ⊢
          omega

/-! ### Samples -/

theorem isValue_cons {c : Char} {cs : List Char} (h : isValue (c :: cs) = true) : c ≠ '{' := by
  rintro rfl
  rw [isValue, Bool.or_eq_true] at h
  rcases h with h | h
  · cases h
  · simp at h

theorem value_ne_nil {value : List Char} (h : isValue value = true) : value ≠ [] := by
  rintro rfl
  exact absurd h (by decide)

/-- A value is read with or without the blank in front of it. -/
theorem readNumber_value {s : Sample} (hs : ProperSample s) :
    readNumber s.value = some s.value ∧ readNumber (' ' :: s.value) = some s.value := by
  have hblank : s.value.splitOnP isBlank = [s.value] :=
    List.splitOnP_eq_singleton fun c hc => (hs.noBlank c hc).1
  have hwords : words s.value = [s.value] := by
    rw [words, hblank]
    simp [value_ne_nil hs.value]
  have hwords' : words (' ' :: s.value) = [s.value] := by
    rw [words, List.splitOnP_cons_eq_if_modifyHead, if_pos (by decide), hblank]
    simp [value_ne_nil hs.value]
  constructor
  · rw [readNumber, hwords]
    exact if_pos hs.value
  · rw [readNumber, hwords']
    exact if_pos hs.value

theorem token_name {name : List Char} (hname : isName name = true) {c : Char}
    (hc : isNameChar c = false) (rest : List Char) :
    token isNameChar (name ++ c :: rest) = (name, c :: rest) := by
  refine token_append (isNameChar_of_isName hname).2 fun d hd => ?_
  obtain rfl : c = d := Option.some.inj hd
  exact hc

/-- A sample with labels is read as its labels are. -/
theorem readSample_labels {s : Sample} (hname : isName s.name = true) (cs : List Char) :
    readSample (s.name ++ '{' :: cs) =
      (readLabels (cs.length + 1) cs).bind fun (labels, cs) =>
        (readNumber cs).map fun value => ⟨s.name, labels, value⟩ := by
  have hbrace : skip ('{' :: cs) = '{' :: cs := skip_cons (by decide) _
  simp only [readSample, token_name hname (by decide : isNameChar '{' = false), hname, if_true,
    hbrace]

/-- **A sample is read back.** -/
theorem readSample_sampleText {s : Sample} (hs : ProperSample s) :
    readSample (sampleText escape s) = some s := by
  rw [sampleText]
  split
  · next hlabels =>
      have hskip : skip (' ' :: s.value) = s.value :=
        skip_eq_self fun c hc => (hs.noBlank c (List.mem_of_mem_head? hc)).1
      obtain ⟨c, cs, hvalue⟩ := List.exists_cons_of_ne_nil (value_ne_nil hs.value)
      have hbrace : c ≠ '{' := isValue_cons (hvalue ▸ hs.value)
      have hnumber := (readNumber_value hs).1
      simp only [readSample, token_name hs.name (by decide : isNameChar ' ' = false), hs.name,
        if_true, hskip]
      rw [hvalue] at hnumber ⊢
      split
      · next h => exact absurd (List.cons.inj h).1 hbrace
      · rw [hnumber, Option.map_some, ← hvalue, ← hlabels]
  · next hlabels =>
      have hlength := length_labelsText escape ('}' :: ' ' :: s.value) s.labels
      rw [readSample_labels hs.name, readLabels_labelsText hlabels hs.labels (' ' :: s.value)
        (by omega), Option.bind_some]
      exact congrArg (Option.map fun value => Sample.mk s.name s.labels value)
        (readNumber_value hs).2

/-! ### Lines -/

theorem skip_name {name : List Char} (hname : isName name = true) (cs : List Char) :
    ∃ c rest, name ++ cs = c :: rest ∧ isNameChar c = true := by
  obtain ⟨hne, hall⟩ := isNameChar_of_isName hname
  cases name with
  | nil => exact absurd rfl hne
  | cons c name => exact ⟨c, name ++ cs, rfl, hall c List.mem_cons_self⟩

theorem token_word {w : List Char} (hw : ∀ c ∈ w, isBlank c = false) (rest : List Char) :
    token (!isBlank ·) (w ++ ' ' :: rest) = (w, ' ' :: rest) := by
  refine token_append (fun c hc => by simp [hw c hc]) fun c hc => ?_
  obtain rfl : ' ' = c := Option.some.inj hc
  decide

/-- What a comment is read as whose two first words are known. -/
theorem readComment_eq {word name : List Char} (hword : word ≠ [])
    (hblank : word.all (!isBlank ·) = true) (hname : isName name = true) (rest : List Char) :
    readComment (' ' :: (word ++ ' ' :: (name ++ ' ' :: rest))) =
      if word = "HELP".toList then some (.help name (skip rest))
      else if word = "TYPE".toList then
        if skip rest ∈ kinds then some (.type name (skip rest)) else none
      else some .other := by
  have hblank : ∀ c ∈ word, isBlank c = false := by simpa using hblank
  have hskipWord : skip (' ' :: (word ++ ' ' :: (name ++ ' ' :: rest))) =
      word ++ ' ' :: (name ++ ' ' :: rest) := by
    obtain ⟨c, cs, rfl⟩ := List.exists_cons_of_ne_nil hword
    exact skip_cons (hblank c List.mem_cons_self) _
  have hskipName : skip (' ' :: (name ++ ' ' :: rest)) = name ++ ' ' :: rest := by
    obtain ⟨d, ds, heq, hd⟩ := skip_name hname (' ' :: rest)
    rw [skip_blank, heq]
    exact skip_cons (not_blank_of_nameChar hd).1 ds
  have htokenName : token (!isBlank ·) (name ++ ' ' :: rest) = (name, ' ' :: rest) :=
    token_word (fun d hd => (not_blank_of_nameChar ((isNameChar_of_isName hname).2 d hd)).1) rest
  simp only [readComment, hskipWord, token_word hblank, hskipName, htokenName, hname, true_and,
    if_true, skip_blank]

/-- A line that begins with the name of a metric is a sample. -/
theorem readLine_name {name : List Char} (hname : isName name = true) (cs : List Char) :
    readLine (name ++ cs) = (readSample (name ++ cs)).map .sample := by
  obtain ⟨c, rest, heq, hc⟩ := skip_name hname cs
  obtain ⟨hblank, -, -, hhash⟩ := not_blank_of_nameChar hc
  rw [heq, readLine, skip_cons hblank]
  split
  · next h => cases h
  · next h => exact absurd (List.cons.inj h).1 hhash
  · rfl

/-- **A line is read back.** -/
theorem readLine_lineText {line : Line} (h : Proper line) :
    readLine (lineText escape line) = some line := by
  cases line with
  | help name doc =>
      obtain ⟨hname, -, hdoc⟩ := h
      have htext : lineText escape (.help name doc) =
          '#' :: ' ' :: ("HELP".toList ++ ' ' :: (name ++ ' ' :: doc)) := rfl
      rw [htext, readLine, skip_cons (by decide)]
      show readComment _ = _
      rw [readComment_eq (by decide) (by decide) hname, if_pos rfl, skip_eq_self hdoc]
  | type name kind =>
      obtain ⟨hname, hkind⟩ := h
      have htext : lineText escape (.type name kind) =
          '#' :: ' ' :: ("TYPE".toList ++ ' ' :: (name ++ ' ' :: kind)) := rfl
      have hskip : skip kind = kind := by
        have hall : ∀ kind ∈ kinds, skip kind = kind := by decide
        exact hall kind hkind
      rw [htext, readLine, skip_cons (by decide)]
      show readComment _ = _
      rw [readComment_eq (by decide) (by decide) hname, if_neg (by decide), if_pos rfl, hskip,
        if_pos hkind]
  | sample s =>
      have hsample := readSample_sampleText h
      obtain ⟨rest, htext⟩ : ∃ rest, sampleText escape s = s.name ++ rest := by
        rw [sampleText]
        split <;> exact ⟨_, rfl⟩
      have hline : lineText escape (.sample s) = s.name ++ rest := htext
      rw [hline, readLine_name h.name, ← htext, hsample]
      rfl
  | other => rfl

/-! ### Texts -/

theorem endedLines_cons {l : List Char} (h : '\n' ∉ l) (rest : List Char) :
    endedLines (l ++ '\n' :: rest) = (endedLines rest).map (l :: ·) := by
  induction l with
  | nil =>
      rw [List.nil_append, endedLines]
      cases endedLines rest <;> rfl
  | cons c l ih =>
      have hc : c ≠ '\n' := fun e => h (e ▸ List.mem_cons_self)
      rw [List.cons_append, endedLines, ih fun hmem => h (List.mem_cons_of_mem _ hmem)]
      cases endedLines rest with
      | none => rfl
      | some ls => exact if_neg hc

/-- The first line of a text ends at its first newline. -/
theorem endedLines_first {l rest : List Char} {ls : List (List Char)}
    (h : endedLines (l ++ '\n' :: rest) = some ls) :
    ∃ tail, ls = l.takeWhile (· ≠ '\n') :: tail := by
  by_cases hline : '\n' ∈ l
  · obtain ⟨front, back, rfl, hfront⟩ := List.eq_append_cons_of_mem hline
    have hall : ∀ c ∈ front, decide (c ≠ '\n') = true := fun c hc =>
      decide_eq_true fun e => hfront (e ▸ hc)
    rw [List.append_assoc, List.cons_append, endedLines_cons hfront] at h
    obtain ⟨tail, -, rfl⟩ := Option.map_eq_some_iff.mp h
    rw [List.takeWhile_append_of_pos hall, List.takeWhile_cons_of_neg (by simp), List.append_nil]
    exact ⟨tail, rfl⟩
  · rw [endedLines_cons hline] at h
    obtain ⟨tail, -, rfl⟩ := Option.map_eq_some_iff.mp h
    have hall : ∀ c ∈ l, decide (c ≠ '\n') = true := fun c hc =>
      decide_eq_true fun e => hline (e ▸ hc)
    rw [List.takeWhile_eq_self_iff.mpr hall]
    exact ⟨tail, rfl⟩

theorem newline_notMem_escape (v : List Char) : '\n' ∉ escape v := by
  intro h
  obtain ⟨c, -, hc⟩ := List.mem_flatMap.mp h
  rw [escapeChar] at hc
  split at hc
  · simp at hc
  · split at hc
    · simp at hc
    · split at hc
      · simp at hc
      · next hline =>
          exact hline (List.mem_singleton.mp hc).symm

theorem newline_notMem_name {name : List Char} (h : isName name = true) : '\n' ∉ name :=
  fun hmem => (not_blank_of_nameChar ((isNameChar_of_isName h).2 _ hmem)).2.1 rfl

theorem newline_notMem_labelName {name : List Char} (h : isLabelName name = true) : '\n' ∉ name :=
  fun hmem => (not_blank_of_nameChar
    (isNameChar_of_isLabelChar ((isLabelChar_of_isLabelName h).2 _ hmem))).2.1 rfl

theorem newline_notMem_labelsText {labels : List (List Char × List Char)} {rest : List Char}
    (hnames : ∀ label ∈ labels, isLabelName label.1 = true) (hrest : '\n' ∉ rest) :
    '\n' ∉ labelsText escape rest labels := by
  induction labels with
  | nil => exact hrest
  | cons label labels ih =>
      have hlabel : '\n' ∉ labelText escape label := by
        have hname := newline_notMem_labelName (hnames label List.mem_cons_self)
        have hvalue := newline_notMem_escape label.2
        simp [labelText, hname, hvalue]
      cases labels with
      | nil => simp [labelsText, hlabel, hrest]
      | cons next labels =>
          have hlabels := ih fun l hl => hnames l (List.mem_cons_of_mem _ hl)
          simp [labelsText, hlabel, hlabels]

/-- A comment with a name in it. -/
theorem newline_notMem_comment {word name rest : List Char} (hword : '\n' ∉ word)
    (hname : isName name = true) (hrest : '\n' ∉ rest) : '\n' ∉ word ++ name ++ ' ' :: rest := by
  simp [hword, newline_notMem_name hname, hrest]

theorem newline_notMem_sampleText {s : Sample} (h : ProperSample s) :
    '\n' ∉ sampleText escape s := by
  have hvalue : '\n' ∉ s.value := fun hmem => (h.noBlank _ hmem).2.1 rfl
  rw [sampleText]
  split
  · simp [newline_notMem_name h.name, hvalue]
  · have hlabels : '\n' ∉ labelsText escape ('}' :: ' ' :: s.value) s.labels :=
      newline_notMem_labelsText h.labels (by simp [hvalue])
    simp [newline_notMem_name h.name, hlabels]

theorem newline_notMem_lineText {line : Line} (h : Proper line) : '\n' ∉ lineText escape line := by
  cases line with
  | help name doc => exact newline_notMem_comment (by decide) h.1 h.2.1
  | type name kind =>
      have hkinds : ∀ kind ∈ kinds, '\n' ∉ kind := by decide
      exact newline_notMem_comment (by decide) h.1 (hkinds kind h.2)
  | sample s => exact newline_notMem_sampleText h
  | other => exact List.not_mem_nil

theorem text_cons (quote : List Char → List Char) (line : Line) (lines : List Line) :
    text quote (line :: lines) = lineText quote line ++ '\n' :: text quote lines := by
  simp [text]

/-- **A text that is written with its label values escaped is read back.** -/
theorem parse_text {lines : List Line} (h : ∀ line ∈ lines, Proper line) :
    parse (text escape lines) = some lines := by
  induction lines with
  | nil => rfl
  | cons line lines ih =>
      have hline := h line List.mem_cons_self
      have hlines := ih fun l hl => h l (List.mem_cons_of_mem _ hl)
      rw [text_cons, parse, endedLines_cons (newline_notMem_lineText hline)]
      obtain ⟨ls, hended, hread⟩ := Option.bind_eq_some_iff.mp hlines
      rw [hended, Option.map_some, Option.bind_some, List.mapM_cons, readLine_lineText hline, hread]
      rfl

/-! ### Label values that are not escaped -/

/-- Labels with a comma behind each. -/
def frontText (front : List (List Char × List Char)) : List Char :=
  front.flatMap fun label => labelText escape label ++ [',']

theorem labelsText_front {front : List (List Char × List Char)}
    (hclean : ∀ label ∈ front, Clean label.2) (last : List Char × List Char) (rest : List Char) :
    labelsText id rest (front ++ [last]) =
      frontText front ++ (last.1 ++ '=' :: '"' :: (last.2 ++ '"' :: rest)) := by
  induction front with
  | nil => simp [labelsText, labelText, frontText]
  | cons label front ih =>
      obtain ⟨next, labels, hnext⟩ := List.exists_cons_of_ne_nil
        (List.append_ne_nil_of_right_ne_nil front (List.cons_ne_nil last []))
      rw [List.cons_append, hnext, labelsText, ← hnext,
        ih fun l hl => hclean l (List.mem_cons_of_mem _ hl)]
      · simp [frontText, labelText, escape_of_clean (hclean label List.mem_cons_self)]
      · exact fun h => by cases h

theorem newline_notMem_frontText {front : List (List Char × List Char)}
    (hnames : ∀ label ∈ front, isLabelName label.1 = true) : '\n' ∉ frontText front := by
  intro h
  obtain ⟨label, hlabel, h⟩ := List.mem_flatMap.mp h
  have hname := newline_notMem_labelName (hnames label hlabel)
  have hvalue := newline_notMem_escape label.2
  simp [labelText, hname, hvalue] at h

/-- The labels in front are read as they are. -/
theorem readLabels_frontText {front : List (List Char × List Char)}
    (hnames : ∀ label ∈ front, isLabelName label.1 = true) {n : ℕ} {cs r : List Char}
    {labels : List (List Char × List Char)}
    (h : readLabels n (frontText front ++ cs) = some (labels, r)) :
    ∃ n' labels', labels = front ++ labels' ∧ readLabels n' cs = some (labels', r) := by
  induction front generalizing n labels with
  | nil => exact ⟨n, labels, rfl, h⟩
  | cons label front ih =>
      cases n with
      | zero => cases h
      | succ n =>
          have htext : frontText (label :: front) ++ cs =
              labelText escape (label.1, label.2) ++ ',' :: (frontText front ++ cs) := by
            simp [frontText]
          rw [htext, readLabels_front (hnames label List.mem_cons_self)] at h
          obtain ⟨⟨labels', r'⟩, hread, heq⟩ := Option.map_eq_some_iff.mp h
          obtain ⟨rfl, rfl⟩ := Prod.mk.inj heq
          obtain ⟨n', rest, rfl, hrest⟩ :=
            ih (fun l hl => hnames l (List.mem_cons_of_mem _ hl)) hread
          exact ⟨n', rest, rfl, hrest⟩

/-- The first label that is read of a text that begins with one. -/
theorem readLabels_head {k : List Char} (hk : isLabelName k = true) {n : ℕ} {cs r : List Char}
    {labels : List (List Char × List Char)}
    (h : readLabels n (k ++ '=' :: '"' :: cs) = some (labels, r)) :
    ∃ v cs', readValue cs = some (v, cs') ∧ labels.head? = some (k, v) := by
  cases n with
  | zero => cases h
  | succ n =>
      rw [readLabels_eq hk] at h
      split at h
      · cases h
      · next v cs' hread =>
          refine ⟨v, cs', hread, ?_⟩
          split at h
          · obtain ⟨rfl, -⟩ := Prod.mk.inj (Option.some.inj h)
            rfl
          · obtain ⟨labels', -, heq⟩ := Option.map_eq_some_iff.mp h
            obtain ⟨rfl, -⟩ := Prod.mk.inj heq
            rfl
          · cases h

/-- **A sample with a last label value that is not escaped** is read as itself only if there is
nothing to escape in it. -/
theorem clean_of_readSample {s : Sample} (hs : ProperSample s)
    {front : List (List Char × List Char)} {k v : List Char}
    (hlabels : s.labels = front ++ [(k, v)]) (hfront : ∀ label ∈ front, Clean label.2)
    (h : readSample ((sampleText id s).takeWhile (· ≠ '\n')) = some s) : Clean v := by
  have hnames : ∀ label ∈ front, isLabelName label.1 = true := fun label hlabel =>
    hs.labels label (hlabels ▸ List.mem_append_left _ hlabel)
  have hk : isLabelName k = true := hs.labels (k, v) (hlabels ▸ by simp)
  have hne : s.labels ≠ [] := by simp [hlabels]
  set rest := '}' :: ' ' :: s.value with hrest
  -- the line as far as the value is free of newlines
  have htext : (sampleText id s).takeWhile (· ≠ '\n') =
      s.name ++ '{' :: (frontText front ++ (k ++ '=' :: '"' :: rawFront v rest)) := by
    have hfree : ∀ c ∈ s.name ++ '{' :: (frontText front ++ (k ++ ['=', '"'])),
        decide (c ≠ '\n') = true := by
      intro c hc
      refine decide_eq_true fun e => ?_
      subst e
      simp [newline_notMem_name hs.name, newline_notMem_frontText hnames,
        newline_notMem_labelName hk] at hc
    have hsplit : sampleText id s =
        (s.name ++ '{' :: (frontText front ++ (k ++ ['=', '"']))) ++ (v ++ '"' :: rest) := by
      rw [sampleText, if_neg hne, hlabels, labelsText_front hfront]
      simp [hrest]
    rw [hsplit, List.takeWhile_append_of_pos hfree, rawFront]
    simp
  rw [htext, readSample_labels hs.name] at h
  obtain ⟨⟨labels, r⟩, hread, hsample⟩ := Option.bind_eq_some_iff.mp h
  obtain ⟨value, -, hsample⟩ := Option.map_eq_some_iff.mp hsample
  obtain rfl : labels = s.labels := congrArg Sample.labels hsample
  obtain ⟨n, labels', heq, hlast⟩ := readLabels_frontText hnames hread
  obtain ⟨v', cs', hvalue, hhead⟩ := readLabels_head hk hlast
  rw [hlabels] at heq
  rw [← List.append_cancel_left heq] at hhead
  obtain rfl : v = v' := congrArg Prod.snd (Option.some.inj hhead)
  have hquote : '"' ∉ rest := by
    rw [hrest]
    simp only [List.mem_cons, not_or]
    exact ⟨by decide, by decide, fun hmem => (hs.noBlank _ hmem).2.2 rfl⟩
  exact (length_readValue hquote hvalue).2 rfl

/-! ### Whole texts whose label values are not escaped -/

/-- The samples of some lines. -/
def samples (lines : List Line) : List Sample :=
  lines.filterMap fun
    | .sample s => some s
    | _ => none

theorem labelsText_of_clean {labels : List (List Char × List Char)}
    (h : ∀ label ∈ labels, Clean label.2) (rest : List Char) :
    labelsText id rest labels = labelsText escape rest labels := by
  induction labels with
  | nil => rfl
  | cons label labels ih =>
      have hlabel : labelText id label = labelText escape label := by
        rw [labelText, labelText, escape_of_clean (h label List.mem_cons_self), id]
      cases labels with
      | nil => rw [labelsText, labelsText, hlabel]
      | cons next labels =>
          have hlabels := ih fun l hl => h l (List.mem_cons_of_mem _ hl)
          show labelText id label ++ ',' :: labelsText id rest (next :: labels) =
            labelText escape label ++ ',' :: labelsText escape rest (next :: labels)
          rw [hlabel, hlabels]

/-- Where there is nothing to escape it makes no difference. -/
theorem sampleText_of_clean {s : Sample} (h : ∀ label ∈ s.labels, Clean label.2) :
    sampleText id s = sampleText escape s := by
  rw [sampleText, sampleText, labelsText_of_clean h]

/-- The line that is read first where a sample is written first. -/
theorem parse_sample {s : Sample} (hname : isName s.name = true) {lines parsed : List Line}
    (h : parse (text id (.sample s :: lines)) = some parsed) :
    ∃ s' rest, readSample ((sampleText id s).takeWhile (· ≠ '\n')) = some s' ∧
      parsed = .sample s' :: rest := by
  rw [text_cons, parse] at h
  obtain ⟨ls, hended, hread⟩ := Option.bind_eq_some_iff.mp h
  obtain ⟨tail, rfl⟩ := endedLines_first hended
  obtain ⟨cs, htext⟩ : ∃ cs, (sampleText id s).takeWhile (· ≠ '\n') = s.name ++ cs := by
    have hfree : ∀ c ∈ s.name, decide (c ≠ '\n') = true := fun c hc =>
      decide_eq_true fun e => newline_notMem_name hname (e ▸ hc)
    rw [sampleText]
    split <;> rw [List.takeWhile_append_of_pos hfree] <;> exact ⟨_, rfl⟩
  have hline : lineText id (.sample s) = sampleText id s := rfl
  rw [List.mapM_cons, hline, htext, readLine_name hname] at hread
  obtain ⟨line, hfirst, hread⟩ := Option.bind_eq_some_iff.mp hread
  obtain ⟨rest, -, hread⟩ := Option.bind_eq_some_iff.mp hread
  obtain ⟨s', hsample, rfl⟩ := Option.map_eq_some_iff.mp hfirst
  exact ⟨s', rest, htext ▸ hsample, (Option.some.inj hread).symm⟩

/-- A line in which nothing has to be escaped is read, and then the others are. -/
theorem parse_cons {line : Line} (hline : Proper line)
    (hclean : lineText id line = lineText escape line) {lines parsed : List Line}
    (h : parse (text id (line :: lines)) = some parsed) :
    ∃ rest, parse (text id lines) = some rest ∧ parsed = line :: rest := by
  rw [text_cons, hclean, parse, endedLines_cons (newline_notMem_lineText hline)] at h
  obtain ⟨ls, hended, hread⟩ := Option.bind_eq_some_iff.mp h
  obtain ⟨ls, hrest, rfl⟩ := Option.map_eq_some_iff.mp hended
  rw [List.mapM_cons, readLine_lineText hline] at hread
  obtain ⟨first, hfirst, hread⟩ := Option.bind_eq_some_iff.mp hread
  obtain rfl := Option.some.inj hfirst
  obtain ⟨rest, hread, heq⟩ := Option.bind_eq_some_iff.mp hread
  refine ⟨rest, ?_, (Option.some.inj heq).symm⟩
  rw [parse, hrest]
  exact hread

/-- **Label values that are not escaped are read back only if there is nothing to escape in them**,
where of each sample only the last one is in question. -/
theorem clean_of_parse {lines parsed : List Line} (hproper : ∀ line ∈ lines, Proper line)
    (hfront : ∀ s ∈ samples lines, ∀ label ∈ s.labels.dropLast, Clean label.2)
    (hparse : parse (text id lines) = some parsed) (hsamples : samples parsed = samples lines) :
    ∀ s ∈ samples lines, ∀ label ∈ s.labels, Clean label.2 := by
  induction lines generalizing parsed with
  | nil => exact fun s hs => absurd hs List.not_mem_nil
  | cons line lines ih =>
      have hline := hproper line List.mem_cons_self
      have hrest := fun l hl => hproper l (List.mem_cons_of_mem line hl)
      by_cases hsample : ∃ s, line = .sample s
      · obtain ⟨s, rfl⟩ := hsample
        have hs : ∀ label ∈ s.labels, Clean label.2 := by
          obtain ⟨s', rest, hread, rfl⟩ := parse_sample hline.name hparse
          obtain ⟨rfl, -⟩ := List.cons.inj hsamples
          rcases List.eq_nil_or_concat s'.labels with hnil | ⟨front, ⟨k, v⟩, hlabels⟩
          · simp [hnil]
          · have hclean : ∀ label ∈ front, Clean label.2 := fun label hlabel =>
              hfront s' List.mem_cons_self label (by simpa [hlabels] using hlabel)
            intro label hlabel
            rw [hlabels, List.concat_eq_append, List.mem_append, List.mem_singleton] at hlabel
            rcases hlabel with hlabel | rfl
            · exact hclean label hlabel
            · exact clean_of_readSample hline (hlabels.trans (List.concat_eq_append ..)) hclean
                hread
        obtain ⟨rest, hparseRest, rfl⟩ := parse_cons hline (sampleText_of_clean hs) hparse
        have hothers := ih hrest (fun t ht => hfront t (List.mem_cons_of_mem _ ht)) hparseRest
          (List.cons.inj hsamples).2
        exact List.forall_mem_cons.mpr ⟨hs, hothers⟩
      · have hnone : ∀ l, samples (line :: l) = samples l := by
          intro l
          cases line with
          | sample s => exact absurd ⟨s, rfl⟩ hsample
          | _ => rfl
        have hclean : lineText id line = lineText escape line := by
          cases line with
          | sample s => exact absurd ⟨s, rfl⟩ hsample
          | _ => rfl
        obtain ⟨rest, hparseRest, rfl⟩ := parse_cons hline hclean hparse
        rw [hnone, hnone] at hsamples
        rw [hnone] at hfront ⊢
        exact ih hrest hfront hparseRest hsamples

/-! ### What the lines must be together -/

/-- The metric that a line is about. -/
def Line.name? : Line → Option (List Char)
  | .help name _ => some name
  | .type name _ => some name
  | .sample s => some s.name
  | .other => none

/-- The second line may stand somewhere behind the first: one `HELP` and one `TYPE` for a metric, in
front of its samples, and no two samples of it with the same labels. -/
def CanFollow : Line → Line → Prop
  | .help name _, .help name' _ => name ≠ name'
  | .type name _, .type name' _ => name ≠ name'
  | .sample s, .help name _ => s.name ≠ name
  | .sample s, .type name _ => s.name ≠ name
  | .sample s, .sample s' => s.name = s'.name → ¬ s.labels.Perm s'.labels
  | _, _ => True

/-- Lines that are right together; what is about one metric stands in one place. -/
structure Valid (lines : List Line) : Prop where
  follow : lines.Pairwise CanFollow
  contiguous : ∀ name other, [name, other, name].Sublist (lines.filterMap Line.name?) → other = name

/-- A metric that is written alone: its two lines and one sample. -/
structure Block where
  doc : List Char
  kind : List Char
  sample : Sample

def Block.name (block : Block) : List Char := block.sample.name

def Block.lines (block : Block) : List Line :=
  [.help block.name block.doc, .type block.name block.kind, .sample block.sample]

/-- A metric whose lines can be written. -/
def Block.Proper (block : Block) : Prop := ∀ line ∈ block.lines, Exposition.Proper line

theorem samples_blocks (blocks : List Block) :
    samples (blocks.flatMap Block.lines) = blocks.map Block.sample := by
  induction blocks with
  | nil => rfl
  | cons block blocks ih => exact congrArg (block.sample :: ·) ih

theorem names_blocks (blocks : List Block) :
    (blocks.flatMap Block.lines).filterMap Line.name? =
      (blocks.map Block.name).flatMap (List.replicate 3) := by
  induction blocks with
  | nil => rfl
  | cons block blocks ih =>
      exact congrArg (fun names => block.name :: block.name :: block.name :: names) ih

/-- The lines of two metrics get on with each other if the names are different. -/
theorem canFollow_blocks {a b : Block} :
    (∀ x ∈ a.lines, ∀ y ∈ b.lines, CanFollow x y) ↔ a.name ≠ b.name := by
  constructor
  · exact fun h => h (.help a.name a.doc) (by simp [Block.lines]) (.help b.name b.doc)
      (by simp [Block.lines])
  · intro hname
    simp only [Block.lines, List.forall_mem_cons, List.not_mem_nil, false_implies, implies_true,
      and_true]
    exact ⟨⟨hname, trivial, trivial⟩, ⟨trivial, hname, trivial⟩, hname, hname,
      fun h => absurd h hname⟩

theorem pairwise_lines (block : Block) : block.lines.Pairwise CanFollow := by
  simp [Block.lines, CanFollow]

/-- Between two places with one name there is no other name if each name is there once. -/
theorem contiguous_replicate {names : List (List Char)} (hnodup : names.Nodup)
    {name other : List Char} (h : [name, other, name].Sublist (names.flatMap (List.replicate 3))) :
    other = name := by
  induction names with
  | nil => exact absurd h.length_le (by simp)
  | cons n names ih =>
      obtain ⟨hn, hnames⟩ := List.nodup_cons.mp hnodup
      have hmem : ∀ m ∈ names.flatMap (List.replicate 3), m ∈ names := by
        intro m hm
        obtain ⟨m', hm', hrep⟩ := List.mem_flatMap.mp hm
        exact List.eq_of_mem_replicate hrep ▸ hm'
      rw [List.flatMap_cons] at h
      obtain ⟨front, back, hsplit, hfront, hback⟩ := List.sublist_append_iff.mp h
      match front, hsplit with
      | [], hsplit => exact ih hnames (hsplit ▸ hback)
      | a :: front, hsplit =>
          have hname : name = n := by
            obtain rfl := (List.cons.inj hsplit).1
            exact List.eq_of_mem_replicate (hfront.subset List.mem_cons_self)
          match front, hsplit with
          | [], hsplit =>
              -- the name would be there again behind its own three places
              have hback' : [other, name] = back := (List.cons.inj hsplit).2
              have hagain : name ∈ back := hback' ▸ by simp
              exact absurd (hmem n (hback.subset (hname ▸ hagain))) hn
          | b :: front, hsplit =>
              obtain rfl := (List.cons.inj (List.cons.inj hsplit).2).1
              have hother := List.eq_of_mem_replicate
                (hfront.subset (List.mem_cons_of_mem _ List.mem_cons_self))
              rw [hother, hname]

/-- **Metrics that are written one by one are valid exactly where no name is there twice.** -/
theorem valid_blocks_iff {blocks : List Block} :
    Valid (blocks.flatMap Block.lines) ↔ (blocks.map Block.name).Nodup := by
  have hfollow :
      (blocks.flatMap Block.lines).Pairwise CanFollow ↔ (blocks.map Block.name).Nodup := by
    rw [List.pairwise_flatMap, List.Nodup, List.pairwise_map]
    simp only [canFollow_blocks, pairwise_lines, implies_true, true_and]
  constructor
  · exact fun h => hfollow.mp h.follow
  · intro h
    refine ⟨hfollow.mpr h, fun name other hsub => ?_⟩
    rw [names_blocks] at hsub
    exact contiguous_replicate h hsub

/-- **What metrics that are written one by one, their label values not escaped, are read as**: valid
lines with the same samples, exactly where no name is there twice and nothing has to be escaped. -/
theorem reads_blocks_iff {blocks : List Block} (hproper : ∀ block ∈ blocks, block.Proper)
    (hfront : ∀ block ∈ blocks, ∀ label ∈ block.sample.labels.dropLast, Clean label.2) :
    (∃ parsed, parse (text id (blocks.flatMap Block.lines)) = some parsed ∧ Valid parsed ∧
        samples parsed = blocks.map Block.sample) ↔
      (blocks.map Block.name).Nodup ∧
        ∀ block ∈ blocks, ∀ label ∈ block.sample.labels, Clean label.2 := by
  have hlines : ∀ line ∈ blocks.flatMap Block.lines, Proper line := by
    intro line hline
    obtain ⟨block, hblock, hline⟩ := List.mem_flatMap.mp hline
    exact hproper block hblock line hline
  -- where nothing has to be escaped the lines are read back
  have hread (hclean : ∀ block ∈ blocks, ∀ label ∈ block.sample.labels, Clean label.2) :
      parse (text id (blocks.flatMap Block.lines)) = some (blocks.flatMap Block.lines) := by
    have htext :
        text id (blocks.flatMap Block.lines) = text escape (blocks.flatMap Block.lines) := by
      refine List.flatMap_congr fun line hline => congrArg (· ++ ['\n']) ?_
      obtain ⟨block, hblock, hline⟩ := List.mem_flatMap.mp hline
      simp only [Block.lines, List.mem_cons, List.not_mem_nil, or_false] at hline
      obtain rfl | rfl | rfl := hline
      · rfl
      · rfl
      · exact sampleText_of_clean (hclean block hblock)
    rw [htext, parse_text hlines]
  constructor
  · rintro ⟨parsed, hparse, hvalid, hsamples⟩
    have hclean : ∀ block ∈ blocks, ∀ label ∈ block.sample.labels, Clean label.2 := by
      have h := clean_of_parse hlines (by simpa [samples_blocks] using hfront) hparse
        (hsamples.trans (samples_blocks blocks).symm)
      simpa [samples_blocks] using h
    obtain rfl := Option.some.inj ((hread hclean).symm.trans hparse)
    exact ⟨valid_blocks_iff.mp hvalid, hclean⟩
  · rintro ⟨hnodup, hclean⟩
    exact ⟨_, hread hclean, valid_blocks_iff.mpr hnodup, samples_blocks blocks⟩

end Support.Exposition
