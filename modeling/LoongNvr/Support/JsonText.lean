import LoongNvr.Support.JsonMembers
import Mathlib.Data.List.Nodup

/-!
# Support — JsonText

JSON texts with what they mean.

* `length_of_read`: the texts in a value are those of the tokens.
* `read_write`: an object is read as it was written if its texts are plain.
* `exists_holds_iff`: only then is each text read as the value of its key.
-/

namespace JsonText
open Support

/-! ### Values -/

inductive Value
  | string (s : List Char)
  | word (w : List Char)
  | array (items : List Value)
  | object (members : List (List Char × Value))

mutual

/-- The length of the texts in a value, keys not counted. -/
def Value.length : Value → ℕ
  | .string s => s.length
  | .word _ => 0
  | .array items => itemsLength items
  | .object members => membersLength members

def itemsLength : List Value → ℕ
  | [] => 0
  | v :: items => v.length + itemsLength items

def membersLength : List (List Char × Value) → ℕ
  | [] => 0
  | (_, v) :: members => v.length + membersLength members

end

/-- A container that is open, with what is complete of it. -/
inductive Frame
  | array (items : List Value)
  | object (members : List (List Char × Value)) (key : List Char)

/-- What must follow, inside the containers that are open. -/
inductive State
  | value (frames : List Frame)
  /-- An item, or the end of the array. -/
  | firstItem (frames : List Frame)
  /-- A comma, or the end of the array. -/
  | item (items : List Value) (frames : List Frame)
  /-- A key, or the end of the object. -/
  | firstKey (frames : List Frame)
  | key (members : List (List Char × Value)) (frames : List Frame)
  | colon (members : List (List Char × Value)) (key : List Char) (frames : List Frame)
  /-- A comma, or the end of the object. -/
  | member (members : List (List Char × Value)) (frames : List Frame)
  | done (v : Value)

/-- A value is complete. -/
def complete (v : Value) : List Frame → State
  | [] => .done v
  | .array items :: frames => .item (items ++ [v]) frames
  | .object members key :: frames => .member (members ++ [(key, v)]) frames

/-- A token where a value must stand. -/
def beginValue (frames : List Frame) : Token → Option State
  | .string s => some (complete (.string s) frames)
  | .word w => some (complete (.word w) frames)
  | .lbracket => some (.firstItem frames)
  | .lbrace => some (.firstKey frames)
  | _ => none

def advance : State → Token → Option State
  | .value frames, t => beginValue frames t
  | .firstItem frames, .rbracket => some (complete (.array []) frames)
  | .firstItem frames, t => beginValue (.array [] :: frames) t
  | .item items frames, .comma => some (.value (.array items :: frames))
  | .item items frames, .rbracket => some (complete (.array items) frames)
  | .firstKey frames, .rbrace => some (complete (.object []) frames)
  | .firstKey frames, .string key => some (.colon [] key frames)
  | .key members frames, .string key => some (.colon members key frames)
  | .colon members key frames, .colon => some (.value (.object members key :: frames))
  | .member members frames, .comma => some (.key members frames)
  | .member members frames, .rbrace => some (complete (.object members) frames)
  | _, _ => none

def readFrom : State → List Token → Option Value
  | .done v, [] => some v
  | _, [] => none
  | st, t :: ts => (advance st t).bind (readFrom · ts)

/-- What a text means, if it is JSON. -/
def read (text : List Char) : Option Value := (lex text).bind (readFrom (.value []))

variable {v : Value} {st st' : State} {t : Token} {ts : List Token} {frames : List Frame}
  {members : List (List Char × Value)} {ms : Members} {text key : List Char}

/-! ### What is read is as long as its tokens -/

def Frame.length : Frame → ℕ
  | .array items => itemsLength items
  | .object members _ => membersLength members

def framesLength : List Frame → ℕ
  | [] => 0
  | frame :: frames => frame.length + framesLength frames

def State.length : State → ℕ
  | .value frames | .firstItem frames | .firstKey frames => framesLength frames
  | .item items frames => itemsLength items + framesLength frames
  | .key members frames | .colon members _ frames | .member members frames =>
      membersLength members + framesLength frames
  | .done v => v.length

/-- A key has just been read. -/
def State.atColon : State → Bool
  | .colon _ _ _ => true
  | _ => false

theorem itemsLength_concat (items : List Value) (v : Value) :
    itemsLength (items ++ [v]) = itemsLength items + v.length := by
  induction items with
  | nil => simp [itemsLength]
  | cons w items ih => rw [List.cons_append, itemsLength, ih, itemsLength, Nat.add_assoc]

theorem membersLength_concat (members : List (List Char × Value)) (key : List Char) (v : Value) :
    membersLength (members ++ [(key, v)]) = membersLength members + v.length := by
  induction members with
  | nil => simp [membersLength]
  | cons e members ih => rw [List.cons_append, membersLength, ih, membersLength, Nat.add_assoc]

theorem length_complete (v : Value) (frames : List Frame) :
    (complete v frames).length = v.length + framesLength frames ∧
      (complete v frames).atColon = false := by
  cases frames with
  | nil => exact ⟨rfl, rfl⟩
  | cons frame frames =>
      have hframes : framesLength (frame :: frames) = frame.length + framesLength frames := rfl
      rw [hframes]
      cases frame with
      | array items =>
          refine ⟨?_, rfl⟩
          rw [complete, State.length, itemsLength_concat, Frame.length]
          omega
      | object members key =>
          refine ⟨?_, rfl⟩
          rw [complete, State.length, membersLength_concat, Frame.length]
          omega

theorem length_beginValue (h : beginValue frames t = some st) :
    st.length = framesLength frames + t.length ∧ st.atColon = false := by
  unfold beginValue at h
  split at h
  · obtain rfl := Option.some.inj h
    exact ⟨(length_complete _ _).1.trans (Nat.add_comm _ _), (length_complete _ _).2⟩
  · obtain rfl := Option.some.inj h
    exact ⟨(length_complete _ _).1.trans (Nat.add_comm _ _), (length_complete _ _).2⟩
  · obtain rfl := Option.some.inj h
    exact ⟨rfl, rfl⟩
  · obtain rfl := Option.some.inj h
    exact ⟨rfl, rfl⟩
  · cases h

/-- A token is a key, or adds its length. -/
theorem length_advance (h : advance st t = some st') :
    st'.length = st.length + if st'.atColon then 0 else t.length := by
  unfold advance at h
  split at h
  · obtain ⟨hlength, hcolon⟩ := length_beginValue h
    rw [hlength, hcolon]
    rfl
  · obtain rfl := Option.some.inj h
    obtain ⟨hlength, hcolon⟩ := length_complete (.array []) ‹_›
    rw [hlength, hcolon]
    exact Nat.zero_add _
  · obtain ⟨hlength, hcolon⟩ := length_beginValue h
    rw [hlength, hcolon]
    simp [framesLength, Frame.length, itemsLength, State.length]
  · obtain rfl := Option.some.inj h
    rfl
  · obtain rfl := Option.some.inj h
    obtain ⟨hlength, hcolon⟩ := length_complete (.array ‹_›) ‹_›
    rw [hlength, hcolon]
    rfl
  · obtain rfl := Option.some.inj h
    obtain ⟨hlength, hcolon⟩ := length_complete (.object []) ‹_›
    rw [hlength, hcolon]
    exact Nat.zero_add _
  · obtain rfl := Option.some.inj h
    exact Nat.zero_add _
  · obtain rfl := Option.some.inj h
    rfl
  · obtain rfl := Option.some.inj h
    rfl
  · obtain rfl := Option.some.inj h
    rfl
  · obtain rfl := Option.some.inj h
    obtain ⟨hlength, hcolon⟩ := length_complete (.object ‹_›) ‹_›
    rw [hlength, hcolon]
    rfl
  · cases h

/-- Behind a key stands a colon, and nowhere else. -/
theorem advance_colon (h : advance st .colon = some st') : st.atColon = true := by
  cases st with
  | colon members key frames => rfl
  | _ => cases h

theorem readFrom_of_atColon (hst : st.atColon = true) (h : readFrom st ts = some v) :
    ∃ ts', ts = .colon :: ts' := by
  cases st with
  | colon members key frames =>
      cases ts with
      | nil => cases h
      | cons t ts =>
          cases t with
          | colon => exact ⟨ts, rfl⟩
          | _ => cases h
  | _ => cases hst

theorem readFrom_cons (st : State) (t : Token) (ts : List Token) :
    readFrom st (t :: ts) = (advance st t).bind (readFrom · ts) := by
  cases st <;> rfl

theorem length_of_readFrom (h : readFrom st ts = some v) :
    v.length = st.length + valueLength ts := by
  fun_induction valueLength ts generalizing st with
  | case1 s ts ih =>
      rw [readFrom_cons] at h
      obtain ⟨st₁, hkey, hmore⟩ := Option.bind_eq_some_iff.mp h
      rw [readFrom_cons] at hmore
      obtain ⟨st₂, hcolon, hrest⟩ := Option.bind_eq_some_iff.mp hmore
      have hfirst := length_advance hkey
      have hsecond := length_advance hcolon
      rw [advance_colon hcolon, if_pos rfl] at hfirst
      simp only [Token.length, ite_self] at hsecond
      rw [ih hrest, hsecond, hfirst]
      rfl
  | case2 t ts hnot ih =>
      rw [readFrom_cons] at h
      obtain ⟨st₁, hadvance, hrest⟩ := Option.bind_eq_some_iff.mp h
      have hfirst := length_advance hadvance
      have hcolon : st₁.atColon = false ∨ t.length = 0 := by
        cases hst : st₁.atColon with
        | false => exact .inl rfl
        | true =>
            obtain ⟨ts', rfl⟩ := readFrom_of_atColon hst hrest
            cases t with
            | string s => exact absurd rfl (hnot s ts' rfl)
            | _ => exact .inr rfl
      rw [ih hrest, hfirst]
      rcases hcolon with hcolon | hlength
      · rw [hcolon, if_neg Bool.false_ne_true, Nat.add_assoc]
      · rw [hlength, ite_self, Nat.zero_add, Nat.add_zero]
  | case3 =>
      cases st with
      | done w =>
          obtain rfl := Option.some.inj h
          rfl
      | _ => cases h

/-- The texts in a value are those of the tokens that are no keys. -/
theorem length_of_read (h : read text = some v) :
    ∃ ts, lex text = some ts ∧ v.length = valueLength ts := by
  obtain ⟨ts, hlex, hread⟩ := Option.bind_eq_some_iff.mp h
  exact ⟨ts, hlex, (length_of_readFrom hread).trans (Nat.zero_add _)⟩

/-! ### An object that is read as it was written -/

def Field.value : Field → Value
  | .text s => .string s
  | .word w => .word w

/-- The members of an object with their values. -/
def values (ms : Members) : List (List Char × Value) := ms.map fun m => (m.1, m.2.value)

theorem readFrom_tailTokens (ms : Members) :
    readFrom (.member members []) (tailTokens ms) = some (.object (members ++ values ms)) := by
  induction ms generalizing members with
  | nil => rw [values, List.map_nil, List.append_nil]; rfl
  | cons m ms ih =>
      obtain ⟨key, field⟩ := m
      have hfield : readFrom (.member members []) (tailTokens ((key, field) :: ms)) =
          readFrom (.member (members ++ [(key, field.value)]) []) (tailTokens ms) := by
        cases field <;> rfl
      rw [hfield, ih, List.append_assoc]
      rfl

/-- **An object is read as it was written** if its texts stand for themselves. -/
theorem read_write (h : Writable ms) (hgood : Good ms) :
    read (write ms) = some (.object (values ms)) := by
  rw [read, lex_write_of_good h hgood, Option.bind_some]
  cases ms with
  | nil => rfl
  | cons m ms =>
      obtain ⟨key, field⟩ := m
      have hfield : readFrom (.value []) (writeTokens ((key, field) :: ms)) =
          readFrom (.member [(key, field.value)] []) (tailTokens ms) := by
        cases field <;> rfl
      rw [hfield, readFrom_tailTokens]
      rfl

/-! ### The values of keys -/

/-- The member of a key; of several, the last. -/
def lastOf (key : List Char) (members : List (List Char × Value)) : Option Value :=
  members.reverse.lookup key

/-- The member of a key, if the value is an object. -/
def Value.find (key : List Char) : Value → Option Value
  | .object members => lastOf key members
  | _ => none

/-- The value as an integer. -/
def Value.int : Value → Option ℤ
  | .word w => if isInteger w then some (intOf w) else none
  | _ => none

theorem int_decimal (n : ℤ) : (Value.word (decimal n)).int = some n := by
  rw [Value.int, isInteger_decimal, if_pos rfl, intOf_decimal]

theorem lastOf_values (hkeys : (ms.map (·.1)).Nodup) {m : List Char × Field} (hm : m ∈ ms) :
    lastOf m.1 (values ms) = some m.2.value := by
  obtain ⟨as, bs, rfl⟩ := List.append_of_mem hm
  rw [List.map_append, List.map_cons] at hkeys
  have hlater : m.1 ∉ bs.map (·.1) := (List.nodup_cons.mp hkeys.of_append_right).1
  refine List.lookup_eq_some_iff.mpr ⟨(values bs).reverse, (values as).reverse, ?_, ?_⟩
  · simp [values]
  · intro p hp
    obtain ⟨m', hm', rfl⟩ := List.mem_map.mp (List.mem_reverse.mp hp)
    rw [bne_iff_ne]
    rintro heq
    exact hlater (List.mem_map.mpr ⟨m', hm', heq.symm⟩)

theorem lastOf_of_not_mem (h : key ∉ members.map (·.1)) : lastOf key members = none := by
  refine List.lookup_eq_none_iff.mpr fun m hm => ?_
  rw [bne_iff_ne]
  rintro rfl
  exact h (List.mem_map.mpr ⟨m, List.mem_reverse.mp hm, rfl⟩)

theorem membersLength_append (members members' : List (List Char × Value)) :
    membersLength (members ++ members') = membersLength members + membersLength members' := by
  induction members with
  | nil => exact (Nat.zero_add _).symm
  | cons m members ih => rw [List.cons_append, membersLength, ih, membersLength, Nat.add_assoc]

theorem membersLength_reverse (members : List (List Char × Value)) :
    membersLength members.reverse = membersLength members := by
  induction members with
  | nil => rfl
  | cons m members ih =>
      rw [List.reverse_cons, membersLength_concat, ih, membersLength, Nat.add_comm]

theorem membersLength_filter_le (members : List (List Char × Value))
    (p : List Char × Value → Bool) :
    membersLength (members.filter p) ≤ membersLength members := by
  induction members with
  | nil => exact le_rfl
  | cons m members ih =>
      rw [List.filter_cons]
      split
      · rw [membersLength, membersLength]
        exact Nat.add_le_add_left ih _
      · rw [membersLength]
        exact ih.trans (Nat.le_add_left _ _)

theorem length_lookup_le (h : members.lookup key = some v) :
    v.length + membersLength (members.filter (·.1 ≠ key)) ≤ membersLength members := by
  obtain ⟨as, bs, rfl, -⟩ := List.lookup_eq_some_iff.mp h
  have has := membersLength_filter_le as (·.1 ≠ key)
  have hbs := membersLength_filter_le bs (·.1 ≠ key)
  rw [List.filter_append, List.filter_cons_of_neg (by simp), membersLength_append,
    membersLength_append, membersLength]
  omega

theorem lookup_filter {key' : List Char} (h : key' ≠ key) :
    (members.filter (·.1 ≠ key)).lookup key' = members.lookup key' := by
  induction members with
  | nil => rfl
  | cons m members ih =>
      obtain ⟨k, v⟩ := m
      by_cases hk : k = key
      · subst hk
        rw [List.filter_cons_of_neg (by simp), ih, List.lookup_cons, beq_eq_false_iff_ne.mpr h]
      · rw [List.filter_cons_of_pos (by simpa using hk), List.lookup_cons, List.lookup_cons, ih]

theorem Field.length_value (field : Field) : field.value.length = field.length := by
  cases field <;> rfl

/-- Values of different keys are different. -/
theorem total_le (hkeys : (ms.map (·.1)).Nodup)
    (h : ∀ m ∈ ms, m.2.length = 0 ∨ members.lookup m.1 = some m.2.value) :
    total ms ≤ membersLength members := by
  induction ms generalizing members with
  | nil => exact Nat.zero_le _
  | cons m ms ih =>
      obtain ⟨hnot, hkeys⟩ := List.nodup_cons.mp hkeys
      obtain ⟨hm, hms⟩ := List.forall_mem_cons.mp h
      have hrest : total ms ≤ membersLength (members.filter (·.1 ≠ m.1)) := by
        refine ih hkeys fun m' hm' => (hms m' hm').imp_right fun hlookup => ?_
        rw [lookup_filter, hlookup]
        rintro heq
        exact hnot (List.mem_map.mpr ⟨m', hm', heq⟩)
      have htotal : total (m :: ms) = m.2.length + total ms := rfl
      rw [htotal]
      rcases hm with hzero | hlookup
      · rw [hzero, Nat.zero_add]
        exact hrest.trans (membersLength_filter_le _ _)
      · have hle := length_lookup_le hlookup
        rw [Field.length_value] at hle
        omega

/-- **An object that is read as it was written has plain texts**: what is found for the key of each
text must be the text. -/
theorem good_of_find (h : Writable ms) (hkeys : (ms.map (·.1)).Nodup)
    (hread : read (write ms) = some v)
    (hfind : ∀ m ∈ ms, m.2.length = 0 ∨ v.find m.1 = some m.2.value) : Good ms := by
  obtain ⟨ts, hlex, hlength⟩ := length_of_read hread
  refine (good_or_valueLength_lt h hlex).resolve_right fun hlt => ?_
  have hle : total ms ≤ v.length := by
    cases v with
    | object members =>
        have hreverse := total_le hkeys hfind
        rw [membersLength_reverse] at hreverse
        exact hreverse
    | _ =>
        have hnone : total ms ≤ membersLength [] :=
          total_le hkeys fun m hm => (hfind m hm).imp_right fun hfound => by cases hfound
        exact hnone.trans (Nat.zero_le _)
  omega

/-- Every key is read with the value that was written for it. -/
def Holds (ms : Members) (v : Value) : Prop := ∀ m ∈ ms, v.find m.1 = some m.2.value

/-- **An object is read as it was written exactly when its texts stand for themselves.** -/
theorem exists_holds_iff (h : Writable ms) (hkeys : (ms.map (·.1)).Nodup) :
    (∃ v, read (write ms) = some v ∧ Holds ms v) ↔ Good ms := by
  constructor
  · rintro ⟨v, hread, hholds⟩
    exact good_of_find h hkeys hread fun m hm => .inr (hholds m hm)
  · intro hgood
    exact ⟨_, read_write h hgood, fun m hm => lastOf_values hkeys hm⟩

end JsonText
