import Mathlib.Data.List.Basic
import Mathlib.Data.List.TakeWhile
import Mathlib.Tactic.TypeStar

/-!
# Support — Mail

The server's side of a mail transfer: what is sent after DATA, read line by line, and the message
in it.  A byte is the character of its code.

* `pieces`: a text between its CRLFs; `join` is the way back.
* `readData`: the lines up to a single dot, each without the dot in front of it.
* `readMessage`: header fields, with the lines that continue them, up to an empty line; the rest is
  the body.
* `readMessage_iff`: header lines and a body written one after the other are read so exactly when
  nothing in them is read as another line of the header, or loses a dot.
-/

namespace Mail

/-! ### Lines -/

/-- A text between its CRLFs. -/
def pieces : List Char → List (List Char)
  | [] => [[]]
  | '\r' :: '\n' :: cs => [] :: pieces cs
  | c :: cs => (pieces cs).modifyHead (c :: ·)

def crlf : List Char := ['\r', '\n']

/-- Lines with a CRLF between them. -/
def join (ls : List (List Char)) : List Char := crlf.intercalate ls

variable {a b : List Char}

theorem pieces_ne_nil (a : List Char) : pieces a ≠ [] := by
  fun_induction pieces a with
  | case1 => simp
  | case2 => simp
  | case3 c cs hcrlf ih =>
      obtain ⟨p, ps, hcons⟩ := List.exists_cons_of_ne_nil ih
      simp [hcons]

theorem pieces_cons {c : Char} {cs : List Char} (h : ∀ ds, c = '\r' → cs ≠ '\n' :: ds) :
    pieces (c :: cs) = (pieces cs).modifyHead (c :: ·) := by
  rw [pieces]
  exact fun ds hc hcs => h ds hc hcs

theorem pieces_crlf (cs : List Char) : pieces (crlf ++ cs) = [] :: pieces cs := by
  rw [crlf]
  simp [pieces]

theorem modifyHead_append {β : Type*} {f : β → β} {xs ys : List β} (h : xs ≠ []) :
    (xs ++ ys).modifyHead f = xs.modifyHead f ++ ys := by
  cases xs with
  | nil => exact absurd rfl h
  | cons x xs => rfl

/-- A CRLF between two texts ends the last line of the first. -/
theorem pieces_append_crlf (a b : List Char) :
    pieces (a ++ (crlf ++ b)) = pieces a ++ pieces b := by
  fun_induction pieces a with
  | case1 => exact pieces_crlf b
  | case2 cs ih =>
      have hsplit : '\r' :: '\n' :: cs ++ (crlf ++ b) = crlf ++ (cs ++ (crlf ++ b)) := rfl
      rw [hsplit, pieces_crlf, ih, List.cons_append]
  | case3 c cs hcrlf ih =>
      have hnot : ∀ ds, c = '\r' → cs ++ (crlf ++ b) ≠ '\n' :: ds := by
        intro ds hc heq
        cases cs with
        | nil => exact absurd (List.cons.inj heq).1 (by decide)
        | cons d cs =>
            obtain ⟨rfl, -⟩ := List.cons.inj heq
            exact hcrlf cs hc rfl
      rw [List.cons_append, pieces_cons hnot, ih, modifyHead_append (pieces_ne_nil cs)]

/-- A text without CR is one line. -/
theorem pieces_of_not_mem (h : '\r' ∉ a) : pieces a = [a] := by
  induction a with
  | nil => rfl
  | cons c cs ih =>
      obtain ⟨hc, hcs⟩ := not_or.mp (mt List.mem_cons.mpr h)
      rw [pieces_cons fun _ heq _ => hc heq.symm, ih hcs]
      rfl

/-- Text without CR goes in front of the first line. -/
theorem pieces_append_of_not_mem (h : '\r' ∉ a) (b : List Char) :
    pieces (a ++ b) = (pieces b).modifyHead (a ++ ·) := by
  induction a with
  | nil =>
      rw [List.nil_append]
      cases pieces b <;> rfl
  | cons c cs ih =>
      obtain ⟨hc, hcs⟩ := not_or.mp (mt List.mem_cons.mpr h)
      rw [List.cons_append, pieces_cons fun _ heq _ => hc heq.symm, ih hcs,
        List.modifyHead_modifyHead]
      rfl

theorem join_pieces (a : List Char) : join (pieces a) = a := by
  fun_induction pieces a with
  | case1 => rfl
  | case2 cs ih =>
      rw [join] at ih ⊢
      rw [List.intercalate_cons_of_ne_nil (pieces_ne_nil cs), ih]
      rfl
  | case3 c cs hcrlf ih =>
      obtain ⟨p, ps, hcons⟩ := List.exists_cons_of_ne_nil (pieces_ne_nil cs)
      rw [hcons, join] at ih ⊢
      rw [List.modifyHead_cons, List.intercalate_cons_cons_left, ih]

/-- Lines come back from the text they are joined to. -/
theorem pieces_join {ls : List (List Char)} (hne : ls ≠ []) (h : ∀ l ∈ ls, pieces l = [l]) :
    pieces (join ls) = ls := by
  induction ls with
  | nil => exact absurd rfl hne
  | cons l ls ih =>
      have hl := h l List.mem_cons_self
      cases ls with
      | nil => rw [join, List.intercalate_singleton, hl]
      | cons m ls =>
          rw [join, List.intercalate_cons_cons, List.append_assoc, pieces_append_crlf, hl, ← join,
            ih (by simp) fun k hk => h k (List.mem_cons_of_mem _ hk)]
          rfl

/-- The lines of a text are each one line. -/
theorem pieces_of_mem_pieces {p : List Char} (h : p ∈ pieces a) : pieces p = [p] := by
  fun_induction pieces a generalizing p with
  | case1 =>
      obtain rfl := List.mem_singleton.mp h
      rfl
  | case2 cs ih =>
      rcases List.mem_cons.mp h with rfl | h
      · rfl
      · exact ih h
  | case3 c cs hcrlf ih =>
      obtain ⟨q, qs, hcons⟩ := List.exists_cons_of_ne_nil (pieces_ne_nil cs)
      rw [hcons] at ih h
      rcases List.mem_cons.mp h with rfl | h
      · -- the first line is as long as it was, but for the character in front
        have hq := ih List.mem_cons_self
        rw [pieces_cons, hq]
        · rfl
        · rintro ds hc rfl
          have hcs := join_pieces cs
          rw [hcons, join, List.intercalate_cons_cons_left] at hcs
          exact hcrlf _ hc hcs.symm
      · exact ih (List.mem_cons_of_mem _ h)

/-! ### The data -/

/-- A leading dot is removed. -/
def unstuff : List Char → List Char
  | '.' :: line => line
  | line => line

/-- The lines of the data, up to a single dot, and the lines after it. -/
def readData : List (List Char) → Option (List (List Char) × List (List Char))
  | [] => none
  | line :: lines =>
      if line = ['.'] then some ([], lines)
      else (readData lines).map fun read => (unstuff line :: read.1, read.2)

theorem readData_eq_some_iff {lines data rest : List (List Char)} :
    readData lines = some (data, rest) ↔
      ∃ ls, lines = ls ++ ['.'] :: rest ∧ ['.'] ∉ ls ∧ data = ls.map unstuff := by
  induction lines generalizing data with
  | nil => simp [readData]
  | cons line lines ih =>
      rw [readData]
      split
      · next hdot =>
          subst hdot
          constructor
          · rintro ⟨⟩
            exact ⟨[], rfl, by simp, rfl⟩
          · rintro ⟨ls, heq, hnot, rfl⟩
            cases ls with
            | nil => simpa using heq
            | cons l ls =>
                obtain ⟨rfl, -⟩ := List.cons.inj heq
                exact absurd List.mem_cons_self hnot
      · next hdot =>
          simp only [Option.map_eq_some_iff, Prod.exists, Prod.mk.injEq]
          constructor
          · rintro ⟨read, rest', hread, rfl, rfl⟩
            obtain ⟨ls, rfl, hnot, rfl⟩ := ih.mp hread
            exact ⟨line :: ls, rfl, by simp [Ne.symm hdot, hnot], rfl⟩
          · rintro ⟨ls, heq, hnot, rfl⟩
            cases ls with
            | nil => exact absurd (List.cons.inj heq).1 hdot
            | cons l ls =>
                obtain ⟨rfl, rfl⟩ := List.cons.inj heq
                exact ⟨_, _, ih.mpr ⟨ls, rfl, fun h => hnot (List.mem_cons_of_mem _ h), rfl⟩, rfl,
                  rfl⟩

/-! ### The message -/

def isWsp (c : Char) : Bool := c = ' ' ∨ c = '\t'

/-- Does a line continue the field of the line before it? -/
def continues (line : List Char) : Bool := line.head?.any isWsp

/-- The text that continues the line before these, and the fields that begin in them. -/
def unfold : List (List Char) → List Char × List (List Char)
  | [] => ([], [])
  | line :: lines =>
      if continues line then (line ++ (unfold lines).1, (unfold lines).2)
      else ([], (line ++ (unfold lines).1) :: (unfold lines).2)

/-- A header field. -/
structure Field where
  name : List Char
  value : List Char
  deriving DecidableEq, Repr

/-- The name up to the first colon, and the value without the space in front of it. -/
def splitField (text : List Char) : Field where
  name := text.takeWhile (· ≠ ':')
  value := ((text.dropWhile (· ≠ ':')).drop 1).dropWhile isWsp

def readField (text : List Char) : Option Field :=
  if ':' ∈ text then some (splitField text) else none

structure Message where
  fields : List Field
  body : List Char
  deriving DecidableEq, Repr

/-- The header ends at the first empty line; it begins with a field. -/
def readMessage (lines : List (List Char)) : Option Message :=
  let header := unfold (lines.takeWhile (· ≠ []))
  if header.1 = [] then
    (header.2.mapM readField).map fun fields =>
      { fields := fields, body := join ((lines.dropWhile (· ≠ [])).drop 1) }
  else none

/-! ### Lines that continue a field -/

theorem unstuff_of_head?_ne {line : List Char} (h : line.head? ≠ some '.') :
    unstuff line = line := by
  unfold unstuff
  split
  · exact absurd rfl h
  · rfl

theorem head?_ne_of_unstuff {line : List Char} (h : unstuff line = line) :
    line.head? ≠ some '.' := by
  cases line with
  | nil => simp
  | cons c cs =>
      rintro heq
      obtain rfl := Option.some.inj heq
      exact absurd (congrArg List.length h) (by simp [unstuff])

theorem pieces_unstuff {line : List Char} (h : pieces line = [line]) :
    pieces (unstuff line) = [unstuff line] := by
  unfold unstuff
  split
  · next cs =>
      have hcons : pieces ('.' :: cs) = (pieces cs).modifyHead ('.' :: ·) :=
        pieces_cons fun _ hc => absurd hc (by decide)
      obtain ⟨p, ps, hp⟩ := List.exists_cons_of_ne_nil (pieces_ne_nil cs)
      rw [hcons, hp, List.modifyHead_cons] at h
      obtain ⟨hhead, rfl⟩ := List.cons.inj h
      rw [hp, (List.cons.inj hhead).2]
  · exact h

theorem unfold_of_continues {ls : List (List Char)} (h : ∀ l ∈ ls, continues l = true)
    (rest : List (List Char)) :
    Mail.unfold (ls ++ rest) = (ls.flatten ++ (Mail.unfold rest).1, (Mail.unfold rest).2) := by
  induction ls with
  | nil => rfl
  | cons l ls ih =>
      rw [List.cons_append, Mail.unfold, if_pos (h l List.mem_cons_self),
        ih fun k hk => h k (List.mem_cons_of_mem _ hk), List.flatten_cons, List.append_assoc]

theorem length_unfold (ls : List (List Char)) :
    (Mail.unfold ls).2.length = ls.countP (!continues ·) := by
  induction ls with
  | nil => rfl
  | cons l ls ih =>
      rw [Mail.unfold]
      split
      · next h => rw [List.countP_cons_of_neg (by simp [h]), ih]
      · next h => rw [List.countP_cons_of_pos (by simpa using h), List.length_cons, ih]

/-- The line begins a field. -/
structure Begins (line : List Char) : Prop where
  colon : ':' ∈ line
  not_continues : continues line = false
  no_dot : line.head? ≠ some '.'

/-- The texts begin fields, though they may go on over several lines. -/
def AllBegin (headers : List (List Char)) : Prop :=
  ∀ h ∈ headers, ∃ p ps, pieces h = p :: ps ∧ Begins p

/-- All the lines of the texts, as they are read. -/
def headerLines (headers : List (List Char)) : List (List Char) :=
  (headers.flatMap pieces).map unstuff

/-- A text as one line. -/
def fieldText (h : List Char) : List Char := ((pieces h).map unstuff).flatten

variable {headers : List (List Char)} {body : List Char}

theorem AllBegin.tail {h : List Char} (hbegin : AllBegin (h :: headers)) : AllBegin headers :=
  fun k hk => hbegin k (List.mem_cons_of_mem _ hk)

/-- The lines that begin a field: one for each text, and those that do not continue it. -/
theorem countP_headerLines (hbegin : AllBegin headers) :
    (headerLines headers).countP (!continues ·) =
      headers.length +
        (headers.flatMap fun h => (pieces h).tail).countP fun p => !continues (unstuff p) := by
  induction headers with
  | nil => rfl
  | cons h headers ih =>
      obtain ⟨p, ps, hp, hbegins⟩ := hbegin h List.mem_cons_self
      have hrest := ih hbegin.tail
      have hfirst : (!continues (unstuff p)) = true := by
        rw [unstuff_of_head?_ne hbegins.no_dot, hbegins.not_continues]
        rfl
      rw [headerLines] at hrest ⊢
      have hcount : (unstuff p :: ps.map unstuff).countP (!continues ·) =
          (ps.map unstuff).countP (!continues ·) + 1 := List.countP_cons_of_pos hfirst
      rw [List.flatMap_cons, List.flatMap_cons, hp, List.map_append, List.map_cons,
        List.countP_append, hcount, hrest, List.tail_cons, List.countP_append, List.countP_map,
        List.length_cons]
      simp only [Function.comp_def]
      omega

/-- Every text continues to its end. -/
def AllContinue (headers : List (List Char)) : Prop :=
  ∀ h ∈ headers, ∀ p ∈ (pieces h).tail, continues (unstuff p) = true

theorem unfold_headerLines (hbegin : AllBegin headers) (hcontinue : AllContinue headers) :
    Mail.unfold (headerLines headers) = ([], headers.map fieldText) := by
  induction headers with
  | nil => rfl
  | cons h headers ih =>
      obtain ⟨p, ps, hp, hbegins⟩ := hbegin h List.mem_cons_self
      have hrest := ih hbegin.tail fun k hk => hcontinue k (List.mem_cons_of_mem _ hk)
      have htail : ∀ l ∈ ps.map unstuff, continues l = true := by
        intro l hl
        obtain ⟨q, hq, rfl⟩ := List.mem_map.mp hl
        exact hcontinue h List.mem_cons_self q (by rwa [hp])
      have hsplit : headerLines (h :: headers) =
          unstuff p :: (ps.map unstuff ++ headerLines headers) := by
        rw [headerLines, List.flatMap_cons, hp, List.map_append, List.map_cons, List.cons_append]
        rfl
      have hfirst : continues (unstuff p) = false := by
        rw [unstuff_of_head?_ne hbegins.no_dot, hbegins.not_continues]
      rw [hsplit, Mail.unfold, if_neg (by simp [hfirst]), unfold_of_continues htail, hrest,
        List.map_cons, fieldText, hp, List.append_nil]
      rfl

/-! ### What is read of a message -/

/-- The lines of a message as they are read: the header, an empty line and the body. -/
def messageLines (headers : List (List Char)) (body : List Char) : List (List Char) :=
  headerLines headers ++ [] :: (pieces body).map unstuff

theorem ne_nil_of_continues {line : List Char} (h : continues line = true) : line ≠ [] := by
  rintro rfl
  exact absurd h (by decide)

theorem ne_nil_of_mem_headerLines (hbegin : AllBegin headers) (hcontinue : AllContinue headers)
    {l : List Char} (hl : l ∈ headerLines headers) : l ≠ [] := by
  obtain ⟨p, hp, rfl⟩ := List.mem_map.mp hl
  obtain ⟨h, hh, hph⟩ := List.mem_flatMap.mp hp
  obtain ⟨q, qs, hcons, hbegins⟩ := hbegin h hh
  rw [hcons] at hph
  rcases List.mem_cons.mp hph with rfl | hq
  · rw [unstuff_of_head?_ne hbegins.no_dot]
    exact List.ne_nil_of_mem hbegins.colon
  · exact ne_nil_of_continues (hcontinue h hh p (by rwa [hcons]))

/-- No line of the text begins with a dot. -/
def NoDots (a : List Char) : Prop := ∀ p ∈ pieces a, p.head? ≠ some '.'

theorem map_unstuff_pieces_iff : (pieces a).map unstuff = pieces a ↔ NoDots a := by
  have hid : (pieces a).map unstuff = pieces a ↔ ∀ p ∈ pieces a, unstuff p = p := by
    conv_lhs => rhs; rw [← List.map_id (pieces a)]
    exact List.map_inj_left
  rw [hid]
  exact ⟨fun h p hp => head?_ne_of_unstuff (h p hp), fun h p hp => unstuff_of_head?_ne (h p hp)⟩

theorem mapM_readField (hbegin : AllBegin headers) :
    (headers.map fieldText).mapM readField =
      some (headers.map fun h => splitField (fieldText h)) := by
  induction headers with
  | nil => rfl
  | cons h headers ih =>
      obtain ⟨p, ps, hp, hbegins⟩ := hbegin h List.mem_cons_self
      have hcolon : ':' ∈ fieldText h := by
        rw [fieldText, hp, List.map_cons, List.flatten_cons, unstuff_of_head?_ne hbegins.no_dot]
        exact List.mem_append_left _ hbegins.colon
      rw [List.map_cons, List.mapM_cons, readField, if_pos hcolon, ih hbegin.tail]
      rfl

/-- **A message that is read as it was written.** -/
theorem readMessage_messageLines (hbegin : AllBegin headers) (hcontinue : AllContinue headers)
    (hdots : NoDots body) :
    readMessage (messageLines headers body) = some
      { fields := headers.map fun h => splitField (fieldText h)
        body := body } := by
  have hne : ∀ l ∈ headerLines headers, decide (l ≠ []) = true := fun l hl =>
    decide_eq_true (ne_nil_of_mem_headerLines hbegin hcontinue hl)
  have htake : (messageLines headers body).takeWhile (· ≠ []) = headerLines headers := by
    rw [messageLines, List.takeWhile_append_of_pos hne]
    simp
  have hdrop : ((messageLines headers body).dropWhile (· ≠ [])).drop 1 = pieces body := by
    rw [messageLines, List.dropWhile_append_of_pos hne, map_unstuff_pieces_iff.mpr hdots]
    simp
  simp only [readMessage, htake, hdrop, unfold_headerLines hbegin hcontinue, if_true, join_pieces,
    mapM_readField hbegin, Option.map_some]

theorem length_of_mapM {β γ : Type*} {f : β → Option γ} {xs : List β} {ys : List γ}
    (h : xs.mapM f = some ys) : ys.length = xs.length := by
  induction xs generalizing ys with
  | nil =>
      cases h
      rfl
  | cons x xs ih =>
      rw [List.mapM_cons] at h
      obtain ⟨y, -, h⟩ := Option.bind_eq_some_iff.mp h
      obtain ⟨zs, hzs, h⟩ := Option.bind_eq_some_iff.mp h
      cases h
      rw [List.length_cons, List.length_cons, ih hzs]

theorem pieces_of_mem_map_unstuff {l : List Char} (h : l ∈ (pieces a).map unstuff) :
    pieces l = [l] := by
  obtain ⟨p, hp, rfl⟩ := List.mem_map.mp h
  exact pieces_unstuff (pieces_of_mem_pieces hp)

theorem pieces_of_mem_headerLines {l : List Char} (h : l ∈ headerLines headers) :
    pieces l = [l] := by
  obtain ⟨p, hp, rfl⟩ := List.mem_map.mp h
  obtain ⟨k, -, hpk⟩ := List.mem_flatMap.mp hp
  exact pieces_unstuff (pieces_of_mem_pieces hpk)

/-- Where the body is read whole, the header ends where it was meant to. -/
theorem ne_nil_of_body
    (h : join (((messageLines headers body).dropWhile (· ≠ [])).drop 1) = body) :
    (∀ l ∈ headerLines headers, l ≠ []) ∧ NoDots body := by
  by_cases hall : (headerLines headers).dropWhile (· ≠ []) = []
  · have hne : ∀ l ∈ headerLines headers, decide (l ≠ []) = true :=
      List.dropWhile_eq_nil_iff.mp hall
    rw [messageLines, List.dropWhile_append_of_pos hne] at h
    have hbody : pieces (join ((pieces body).map unstuff)) = (pieces body).map unstuff :=
      pieces_join (by simpa using pieces_ne_nil body) fun l hl => pieces_of_mem_map_unstuff hl
    have hjoin : join ((pieces body).map unstuff) = body := by simpa using h
    rw [hjoin] at hbody
    exact ⟨fun l hl => of_decide_eq_true (hne l hl), map_unstuff_pieces_iff.mp hbody.symm⟩
  · -- an empty line in the header would leave more lines than the body has
    exfalso
    obtain ⟨x, rest, hrest⟩ := List.exists_cons_of_ne_nil hall
    have hbody : join (rest ++ [] :: (pieces body).map unstuff) = body := by
      rw [messageLines, List.dropWhile_append, hrest] at h
      simpa using h
    have hlines : pieces body = rest ++ [] :: (pieces body).map unstuff := by
      conv_lhs => rw [← hbody]
      refine pieces_join (by simp) fun l hl => ?_
      rcases List.mem_append.mp hl with hl | hl
      · have hmem : l ∈ headerLines headers :=
          (List.dropWhile_sublist _).subset (hrest ▸ List.mem_cons_of_mem _ hl)
        exact pieces_of_mem_headerLines hmem
      · rcases List.mem_cons.mp hl with rfl | hl
        · rfl
        · exact pieces_of_mem_map_unstuff hl
    have hlength := congrArg List.length hlines
    simp only [List.length_append, List.length_cons, List.length_map] at hlength
    omega

/-- **What is read of a message**: as many fields as there are texts, and the body, exactly when the
texts continue to their ends and no line of the body begins with a dot. -/
theorem readMessage_iff (hbegin : AllBegin headers) :
    (∃ message ∈ readMessage (messageLines headers body),
        message.fields.length = headers.length ∧ message.body = body) ↔
      AllContinue headers ∧ NoDots body := by
  constructor
  · rintro ⟨message, hread, hfields, hbody⟩
    simp only [readMessage, Option.mem_def] at hread
    split at hread
    · obtain ⟨fields, hmap, rfl⟩ := Option.map_eq_some_iff.mp hread
      obtain ⟨hne, hdots⟩ := ne_nil_of_body hbody
      refine ⟨?_, hdots⟩
      have htake : (messageLines headers body).takeWhile (· ≠ []) = headerLines headers := by
        rw [messageLines, List.takeWhile_append_of_pos fun l hl => decide_eq_true (hne l hl)]
        simp
      have hcount : headers.length = (headerLines headers).countP (!continues ·) := by
        rw [← length_unfold, ← htake, ← length_of_mapM hmap]
        exact hfields.symm
      rw [countP_headerLines hbegin] at hcount
      have hnone := List.countP_eq_zero.mp (Nat.left_eq_add.mp hcount)
      intro h hh p hp
      have hp' := hnone p (List.mem_flatMap.mpr ⟨h, hh, hp⟩)
      simpa using hp'
    · cases hread
  · rintro ⟨hcontinue, hdots⟩
    exact ⟨_, readMessage_messageLines hbegin hcontinue hdots, List.length_map _, rfl⟩

/-! ### What the server receives -/

/-- What a server makes of what is sent after DATA: one message, the commands after it, and what is
not a whole line yet. -/
structure Receipt where
  message : Message
  commands : List (List Char)
  pending : List Char
  deriving DecidableEq, Repr

def receive (stream : List Char) : Option Receipt :=
  (readData (pieces stream).dropLast).bind fun read =>
    (readMessage read.1).map fun message =>
      { message := message, commands := read.2, pending := (pieces stream).getLastD [] }

/-- A message as it is sent, with commands behind it. -/
def wire (headers : List (List Char)) (body : List Char) (commands : List (List Char)) :
    List Char :=
  headers.flatMap (· ++ crlf) ++ (crlf ++ (body ++ (crlf ++ (['.'] ++ (crlf ++
    commands.flatMap (· ++ crlf))))))

variable {commands : List (List Char)}

theorem pieces_flatMap (ls : List (List Char)) (rest : List Char) :
    pieces (ls.flatMap (· ++ crlf) ++ rest) = ls.flatMap pieces ++ pieces rest := by
  induction ls with
  | nil => rfl
  | cons l ls ih =>
      rw [List.flatMap_cons, List.flatMap_cons, List.append_assoc, List.append_assoc,
        pieces_append_crlf, ih, List.append_assoc]

theorem pieces_wire (hcommands : ∀ c ∈ commands, '\r' ∉ c) :
    pieces (wire headers body commands) =
      (headers.flatMap pieces ++ [] :: pieces body) ++ ['.'] :: commands ++ [[]] := by
  have hlast : pieces (commands.flatMap (· ++ crlf)) = commands ++ [[]] := by
    have hlines : commands.flatMap pieces = commands := by
      have hsingle : commands.flatMap pieces = commands.flatMap ([·]) :=
        List.flatMap_congr fun c hc => pieces_of_not_mem (hcommands c hc)
      rw [hsingle, List.flatMap_singleton']
    rw [← List.append_nil (commands.flatMap _), pieces_flatMap, hlines]
    rfl
  have hdot : pieces ['.'] = [['.']] := rfl
  rw [wire, pieces_flatMap, pieces_crlf, pieces_append_crlf, pieces_append_crlf, hdot, hlast]
  simp only [List.append_assoc, List.cons_append, List.nil_append]

/-- Lines that continue a field are not the end of the data. -/
theorem dot_not_mem (hbegin : AllBegin headers) (hcontinue : AllContinue headers)
    (hdots : NoDots body) : ['.'] ∉ headers.flatMap pieces ++ [] :: pieces body := by
  intro h
  rcases List.mem_append.mp h with h | h
  · obtain ⟨k, hk, hp⟩ := List.mem_flatMap.mp h
    obtain ⟨p, ps, hcons, hbegins⟩ := hbegin k hk
    rw [hcons] at hp
    rcases List.mem_cons.mp hp with rfl | hp
    · exact hbegins.no_dot rfl
    · exact absurd (hcontinue k hk ['.'] (by rwa [hcons])) (by decide)
  · rcases List.mem_cons.mp h with h | h
    · cases h
    · exact hdots _ h rfl

/-- **A message that is received as it was sent.** -/
theorem receive_wire (hcommands : ∀ c ∈ commands, '\r' ∉ c) (hbegin : AllBegin headers)
    (hcontinue : AllContinue headers) (hdots : NoDots body) :
    receive (wire headers body commands) = some
      { message :=
          { fields := headers.map fun h => splitField (fieldText h)
            body := body }
        commands := commands
        pending := [] } := by
  have hdata : readData ((headers.flatMap pieces ++ [] :: pieces body) ++ ['.'] :: commands) =
      some (messageLines headers body, commands) := by
    refine readData_eq_some_iff.mpr ⟨_, rfl, dot_not_mem hbegin hcontinue hdots, ?_⟩
    rw [List.map_append, List.map_cons]
    rfl
  rw [receive, pieces_wire hcommands, List.dropLast_concat, hdata, Option.bind_some,
    readMessage_messageLines hbegin hcontinue hdots, Option.map_some, List.getLastD_concat]

/-- **What is received of a message**: one message of as many fields as there are texts, its body
and the commands behind it, exactly when the texts continue to their ends and no line of the body
begins with a dot. -/
theorem receive_wire_iff (hcommands : ∀ c ∈ commands, '\r' ∉ c) (hbegin : AllBegin headers) :
    (∃ receipt ∈ receive (wire headers body commands),
        receipt.message.fields.length = headers.length ∧ receipt.message.body = body ∧
          receipt.commands = commands) ↔
      AllContinue headers ∧ NoDots body := by
  constructor
  · rintro ⟨receipt, hreceive, hfields, hbody, hrest⟩
    rw [receive, pieces_wire hcommands, List.dropLast_concat] at hreceive
    obtain ⟨⟨data, rest⟩, hdata, hmap⟩ := Option.bind_eq_some_iff.mp hreceive
    obtain ⟨message, hread, rfl⟩ := Option.map_eq_some_iff.mp hmap
    obtain rfl : rest = commands := hrest
    -- the data end where they were meant to, since just the commands are left
    obtain ⟨ls, hls, -, rfl⟩ := readData_eq_some_iff.mp hdata
    obtain rfl := List.append_cancel_right hls
    refine (readMessage_iff hbegin).mp ⟨message, ?_, hfields, hbody⟩
    rw [List.map_append, List.map_cons] at hread
    exact hread
  · rintro ⟨hcontinue, hdots⟩
    exact ⟨_, receive_wire hcommands hbegin hcontinue hdots, List.length_map _, rfl, rfl⟩

/-! ### A text on one line -/

theorem length_unstuff_le (line : List Char) : (unstuff line).length ≤ line.length := by
  unfold unstuff
  split
  · simp
  · exact le_rfl

theorem length_flatten_unstuff (p : List Char) (ps : List (List Char)) :
    ((p :: ps).map unstuff).flatten.length + 2 * ps.length ≤ (join (p :: ps)).length := by
  induction ps generalizing p with
  | nil => simpa [join] using length_unstuff_le p
  | cons q ps ih =>
      have hq := ih q
      have hp := length_unstuff_le p
      have hcrlf : crlf.length = 2 := rfl
      rw [join, List.intercalate_cons_cons, ← join, List.length_append, List.length_append, hcrlf,
        List.map_cons, List.flatten_cons, List.length_append, List.length_cons]
      omega

/-- A text of several lines gets shorter. -/
theorem length_fieldText_lt {h p : List Char} {ps : List (List Char)} (hp : pieces h = p :: ps)
    (hps : ps ≠ []) : (fieldText h).length < h.length := by
  have hlength := length_flatten_unstuff p ps
  have hpos := List.length_pos_iff.mpr hps
  rw [← hp, join_pieces, ← fieldText] at hlength
  omega

/-- A text that is read as it was written is one line. -/
theorem pieces_of_fieldText {h : List Char} (heq : fieldText h = h) : pieces h = [h] := by
  obtain ⟨p, ps, hp⟩ := List.exists_cons_of_ne_nil (pieces_ne_nil h)
  by_cases hps : ps = []
  · subst hps
    have hjoin := join_pieces h
    rw [hp, join, List.intercalate_singleton] at hjoin
    rw [hp, hjoin]
  · have hlt := length_fieldText_lt hp hps
    rw [heq] at hlt
    exact absurd hlt (lt_irrefl _)

/-! ### Texts put together -/

/-- The lines of two texts, of which the second does not begin with a LF: the last line of the first
goes on in the second. -/
theorem pieces_append (hb : b.head? ≠ some '\n') :
    pieces (a ++ b) =
      (pieces a).dropLast ++ (pieces b).modifyHead ((pieces a).getLastD [] ++ ·) := by
  fun_induction pieces a with
  | case1 => cases hp : pieces b <;> simp [hp]
  | case2 cs ih =>
      obtain ⟨p, ps, hp⟩ := List.exists_cons_of_ne_nil (pieces_ne_nil cs)
      have hsplit : '\r' :: '\n' :: cs ++ b = crlf ++ (cs ++ b) := rfl
      rw [hsplit, pieces_crlf, ih, hp]
      simp
  | case3 c cs hcrlf ih =>
      have hnot : ∀ ds, c = '\r' → cs ++ b ≠ '\n' :: ds := by
        intro ds hc heq
        cases cs with
        | nil => exact hb (by rw [← List.nil_append b, heq]; rfl)
        | cons d cs =>
            obtain ⟨rfl, -⟩ := List.cons.inj heq
            exact hcrlf cs hc rfl
      obtain ⟨p, ps, hp⟩ := List.exists_cons_of_ne_nil (pieces_ne_nil cs)
      obtain ⟨q, qs, hq⟩ := List.exists_cons_of_ne_nil (pieces_ne_nil b)
      rw [List.cons_append, pieces_cons hnot, ih, hp, hq]
      cases ps <;> simp

/-- A text without CRLF. -/
def OneLine (a : List Char) : Prop := pieces a = [a]

/-- No line but the first begins with a dot. -/
def NoDotLines (a : List Char) : Prop := ∀ p ∈ (pieces a).tail, p.head? ≠ some '.'

/-- Every line but the first continues the one before it. -/
def Folded (a : List Char) : Prop := ∀ p ∈ (pieces a).tail, continues (unstuff p) = true

theorem oneLine_iff : OneLine a ↔ (pieces a).tail = [] := by
  obtain ⟨p, ps, hp⟩ := List.exists_cons_of_ne_nil (pieces_ne_nil a)
  have hjoin := join_pieces a
  rw [OneLine, hp, List.tail_cons]
  constructor
  · intro h
    exact (List.cons.inj h).2
  · rintro rfl
    rw [hp, join, List.intercalate_singleton] at hjoin
    rw [hjoin]

theorem tail_pieces_append (ha : '\r' ∉ a) (b : List Char) :
    (pieces (a ++ b)).tail = (pieces b).tail := by
  rw [pieces_append_of_not_mem ha]
  cases pieces b <;> rfl

theorem oneLine_append_iff (ha : '\r' ∉ a) : OneLine (a ++ b) ↔ OneLine b := by
  rw [oneLine_iff, oneLine_iff, tail_pieces_append ha]

theorem noDotLines_append_iff (ha : '\r' ∉ a) : NoDotLines (a ++ b) ↔ NoDotLines b := by
  rw [NoDotLines, NoDotLines, tail_pieces_append ha]

/-- The text begins, and neither with a LF nor with a dot. -/
def Safe (a : List Char) : Prop := ∃ c cs, a = c :: cs ∧ c ≠ '\n' ∧ c ≠ '.'

theorem safe_iff : a.head?.any (fun c => c ≠ '\n' ∧ c ≠ '.') = true ↔ Safe a := by
  cases a <;> simp [Safe]

instance : Decidable (Safe a) := decidable_of_iff _ safe_iff

theorem Safe.append (ha : Safe a) (b : List Char) : Safe (a ++ b) := by
  obtain ⟨c, cs, rfl, hc⟩ := ha
  exact ⟨c, cs ++ b, rfl, hc⟩

theorem Safe.head?_ne (ha : Safe a) : a.head? ≠ some '\n' := by
  obtain ⟨c, cs, rfl, hc, -⟩ := ha
  exact fun h => hc (Option.some.inj h)

theorem oneLine_append_safe_iff (hb : Safe b) : OneLine (a ++ b) ↔ OneLine a ∧ OneLine b := by
  obtain ⟨p, ps, hp⟩ := List.exists_cons_of_ne_nil (pieces_ne_nil a)
  obtain ⟨q, qs, hq⟩ := List.exists_cons_of_ne_nil (pieces_ne_nil b)
  rw [oneLine_iff, oneLine_iff, oneLine_iff, pieces_append hb.head?_ne, hp, hq]
  cases ps <;> simp

/-- The first line of a text begins as the text does. -/
theorem Safe.head?_pieces_ne (hb : Safe b) {q : List Char} {qs : List (List Char)}
    (hq : pieces b = q :: qs) : q.head? ≠ some '.' := by
  obtain ⟨c, cs, rfl, -, hdot⟩ := hb
  cases q with
  | nil => simp
  | cons d q =>
      have hjoin := join_pieces (c :: cs)
      rw [hq, join, List.intercalate_cons_cons_left] at hjoin
      rw [(List.cons.inj hjoin).1]
      exact fun h => hdot (Option.some.inj h)

theorem noDotLines_append_safe_iff (hb : Safe b) :
    NoDotLines (a ++ b) ↔ NoDotLines a ∧ NoDotLines b := by
  obtain ⟨p, ps, hp⟩ := List.exists_cons_of_ne_nil (pieces_ne_nil a)
  obtain ⟨q, qs, hq⟩ := List.exists_cons_of_ne_nil (pieces_ne_nil b)
  have hqdot := hb.head?_pieces_ne hq
  rw [NoDotLines, NoDotLines, NoDotLines, pieces_append hb.head?_ne, hp, hq]
  rcases List.eq_nil_or_concat ps with rfl | ⟨between, l, rfl⟩
  · simp
  · -- the last line of the first text begins with a dot or not, whatever follows on it
    have hlast : (l ++ q).head? ≠ some '.' ↔ l.head? ≠ some '.' := by
      cases l with
      | nil => simpa using hqdot
      | cons c cs => simp
    have hsplit : (p :: (between ++ [l])).dropLast ++
        List.modifyHead ((p :: (between ++ [l])).getLastD [] ++ ·) (q :: qs) =
          p :: (between ++ (l ++ q) :: qs) := by
      rw [← List.cons_append, List.dropLast_concat, List.getLastD_concat]
      rfl
    rw [List.concat_eq_append, hsplit]
    simp only [List.tail_cons, List.forall_mem_append, List.forall_mem_cons, List.mem_singleton,
      forall_eq, hlast, and_assoc]

/-- A text that is closed by a safe line. -/
theorem noDotLines_closed_iff (hb : Safe b) (hline : '\r' ∉ b) {rest : List Char} :
    NoDotLines (a ++ (b ++ rest)) ↔ NoDotLines a ∧ NoDotLines rest := by
  rw [noDotLines_append_safe_iff (hb.append rest), noDotLines_append_iff hline]

theorem folded_append_iff (ha : '\r' ∉ a) : Folded (a ++ b) ↔ Folded b := by
  rw [Folded, Folded, tail_pieces_append ha]

theorem Folded.of_oneLine (h : OneLine a) : Folded a := by
  rw [Folded, oneLine_iff.mp h]
  simp

theorem NoDotLines.of_oneLine (h : OneLine a) : NoDotLines a := by
  rw [NoDotLines, oneLine_iff.mp h]
  simp

theorem oneLine_of_not_mem (h : '\r' ∉ a) : OneLine a := pieces_of_not_mem h

/-- The first line begins as the text does, so the others are left to look at. -/
theorem noDots_iff (h : Safe a) : NoDots a ↔ NoDotLines a := by
  obtain ⟨p, ps, hp⟩ := List.exists_cons_of_ne_nil (pieces_ne_nil a)
  have hhead := h.head?_pieces_ne hp
  rw [NoDots, NoDotLines, hp, List.forall_mem_cons, List.tail_cons]
  exact and_iff_right hhead

/-- A text is read on one line behind a name in front of it. -/
theorem fieldText_append (ha : '\r' ∉ a) (hne : a ≠ []) (hdot : a.head? ≠ some '.')
    (b : List Char) :
    fieldText (a ++ b) = a ++ ((pieces b).headD [] ++ ((pieces b).tail.map unstuff).flatten) := by
  obtain ⟨p, ps, hp⟩ := List.exists_cons_of_ne_nil (pieces_ne_nil b)
  obtain ⟨c, cs, rfl⟩ := List.exists_cons_of_ne_nil hne
  have hfirst : unstuff (c :: cs ++ p) = c :: cs ++ p := unstuff_of_head?_ne hdot
  rw [fieldText, pieces_append_of_not_mem ha, hp, List.modifyHead_cons, List.map_cons, hfirst,
    List.flatten_cons, List.append_assoc]
  rfl

theorem begins_of_append (ha : '\r' ∉ a) (hcolon : ':' ∈ a) (hstart : continues a = false)
    (hdot : a.head? ≠ some '.') (b : List Char) :
    ∃ p ps, pieces (a ++ b) = p :: ps ∧ Begins p := by
  obtain ⟨p, ps, hp⟩ := List.exists_cons_of_ne_nil (pieces_ne_nil b)
  obtain ⟨c, cs, rfl⟩ := List.exists_cons_of_ne_nil (List.ne_nil_of_mem hcolon)
  refine ⟨c :: cs ++ p, ps, ?_, List.mem_append_left _ hcolon, hstart, hdot⟩
  rw [pieces_append_of_not_mem ha, hp]
  rfl

end Mail
