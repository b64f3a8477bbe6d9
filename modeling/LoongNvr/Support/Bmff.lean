import LoongNvr.Support.Buffer

/-!
# Support — Bmff

The reader's side of two formats built from lengths: the boxes of an ISO base media file, each
behind its own size and type, and byte strings behind their length in four bytes.

* `parseBoxes`: a byte string as boxes whose sizes fill it exactly.
* `splitLengths`: a byte string as length-prefixed strings that fill it exactly.
* `parseBoxes_cons`, `splitLengths_cons`: what was written first is read first.
* `parseTree`: the boxes down to a depth.
* `Parses`: a byte string is read as some boxes whatever follows it; `Parses.append`, `Parses.leaf`
  and `Parses.node` build it up.
* `payloadAt`: what is inside the box at the end of a path.
* `Holds`: a byte string is read as boxes with that at the end of a path; `Holds.node` goes a level
  up, `Holds.behind` and `Holds.before` add the boxes beside it.
-/

namespace Bmff
open Support

/-- The four characters that name a kind of box. -/
structure FourCc where
  a : Char
  b : Char
  c : Char
  d : Char
  deriving DecidableEq, Repr

def FourCc.bytes (type : FourCc) : List UInt8 :=
  [type.a, type.b, type.c, type.d].map fun ch => UInt8.ofNat ch.toNat

/-- A box: the type as its bytes, and what is inside it. -/
structure Box where
  type : List UInt8
  payload : List UInt8
  deriving DecidableEq, Repr

/-- The boxes a byte string is made of: each says its size, at least the eight bytes of size and
type, and the next begins where it ends. -/
def parseBoxes (bs : List UInt8) : Option (List Box) :=
  if bs = [] then some []
  else if 8 ≤ field bs 0 4 ∧ field bs 0 4 ≤ bs.length then
    (parseBoxes (bs.drop (field bs 0 4))).map
      (⟨(bs.drop 4).take 4, (bs.take (field bs 0 4)).drop 8⟩ :: ·)
  else none
  termination_by bs.length
  decreasing_by simp only [List.length_drop]; omega

/-- The strings a byte string is made of, each behind its length. -/
def splitLengths (bs : List UInt8) : Option (List (List UInt8)) :=
  if bs = [] then some []
  else if 4 ≤ bs.length ∧ 4 + field bs 0 4 ≤ bs.length then
    (splitLengths (bs.drop (4 + field bs 0 4))).map ((bs.drop 4).take (field bs 0 4) :: ·)
  else none
  termination_by bs.length
  decreasing_by simp only [List.length_drop]; omega

@[simp] theorem FourCc.length_bytes (type : FourCc) : type.bytes.length = 4 := rfl

@[simp] theorem parseBoxes_nil : parseBoxes [] = some [] := by rw [parseBoxes, if_pos rfl]

@[simp] theorem splitLengths_nil : splitLengths [] = some [] := by rw [splitLengths, if_pos rfl]

/-! ### Reading what was written -/

/-- **A box is read back**, whatever follows it, if its size fits its size field. -/
theorem parseBoxes_cons (type : FourCc) (payload rest : List UInt8)
    (h : 8 + payload.length < 2 ^ 32) :
    parseBoxes (be 4 (8 + payload.length) ++ (type.bytes ++ (payload ++ rest))) =
      (parseBoxes rest).map (⟨type.bytes, payload⟩ :: ·) := by
  set bs := be 4 (8 + payload.length) ++ (type.bytes ++ (payload ++ rest)) with hbs
  have hlen : bs.length = 8 + payload.length + rest.length := by
    simp only [hbs, List.length_append, length_be, FourCc.length_bytes]
    omega
  have hne : bs ≠ [] := List.ne_nil_of_length_pos (by omega)
  have hsize : field bs 0 4 = 8 + payload.length := by
    rw [hbs]
    exact field_be [] rfl h
  have htype : (bs.drop 4).take 4 = type.bytes := by
    rw [hbs, List.drop_left' (length_be 4 _), List.take_left' type.length_bytes]
  have hbody : bs.drop 8 = payload ++ rest := by
    rw [hbs, ← List.append_assoc, List.drop_left' (by simp)]
  have hrest : bs.drop (8 + payload.length) = rest := by
    rw [← List.drop_drop, hbody, List.drop_left]
  have hpayload : (bs.take (8 + payload.length)).drop 8 = payload := by
    rw [List.drop_take, hbody, Nat.add_sub_cancel_left, List.take_left]
  rw [parseBoxes, if_neg hne, hsize, if_pos ⟨by omega, by omega⟩, hrest, htype, hpayload]

/-- **A string behind its length is read back**, whatever follows it, if the length fits. -/
theorem splitLengths_cons (bs rest : List UInt8) (h : bs.length < 2 ^ 32) :
    splitLengths (be 4 bs.length ++ (bs ++ rest)) = (splitLengths rest).map (bs :: ·) := by
  set all := be 4 bs.length ++ (bs ++ rest) with hall
  have hlen : all.length = 4 + bs.length + rest.length := by
    simp only [hall, List.length_append, length_be]
    omega
  have hne : all ≠ [] := List.ne_nil_of_length_pos (by omega)
  have hsize : field all 0 4 = bs.length := by
    rw [hall]
    exact field_be [] rfl h
  have hbody : all.drop 4 = bs ++ rest := by rw [hall, List.drop_left' (length_be 4 _)]
  have hrest : all.drop (4 + bs.length) = rest := by
    rw [← List.drop_drop, hbody, List.drop_left]
  rw [splitLengths, if_neg hne, hsize, if_pos ⟨by omega, by omega⟩, hrest, hbody, List.take_left]

/-- Strings written one after the other are read back in order. -/
theorem splitLengths_flatMap {bss : List (List UInt8)} (h : ∀ bs ∈ bss, bs.length < 2 ^ 32) :
    splitLengths (bss.flatMap fun bs => be 4 bs.length ++ bs) = some bss := by
  induction bss with
  | nil => simp
  | cons bs bss ih =>
      rw [List.flatMap_cons, List.append_assoc, splitLengths_cons _ _ (h bs (by simp)),
        ih fun b hb => h b (List.mem_cons_of_mem _ hb), Option.map_some]

/-- Strings that are read fill the byte string. -/
theorem length_of_splitLengths {bs : List UInt8} {bss : List (List UInt8)}
    (h : splitLengths bs = some bss) : (bss.map (4 + ·.length)).sum = bs.length := by
  fun_induction splitLengths bs generalizing bss with
  | case1 => cases h; rfl
  | case2 bs hne hfits ih =>
      obtain ⟨later, hlater, rfl⟩ := Option.map_eq_some_iff.mp h
      have hrest := ih hlater
      simp only [List.length_drop, List.length_take, List.map_cons, List.sum_cons] at hrest ⊢
      omega
  | case3 => cases h

/-! ### Boxes inside boxes

Boxes inside boxes: a byte string of boxes of which some, by their type, hold boxes themselves
behind a head of a known size.
-/

/-- A box with what was found in it: nothing to look into, or a head and boxes. -/
inductive BoxTree
  | leaf (type payload : List UInt8)
  | node (type head : List UInt8) (children : List BoxTree)

def BoxTree.type : BoxTree → List UInt8
  | .leaf type _ => type
  | .node type _ _ => type

/-- The size of the head of a box that holds boxes, by type. -/
abbrev Containers := List UInt8 → Option ℕ

variable (containers : Containers)

/-- What is found in a box, where the boxes in it are read by `inner`. -/
def openBox (inner : List UInt8 → Option (List BoxTree)) (box : Box) : Option BoxTree :=
  match containers box.type with
  | none => some (.leaf box.type box.payload)
  | some size =>
      if size ≤ box.payload.length then
        (inner (box.payload.drop size)).map (.node box.type (box.payload.take size))
      else none

/-- Boxes down to a depth; none where a size is wrong, or there are more levels. -/
def parseTree : ℕ → List UInt8 → Option (List BoxTree)
  | 0, _ => none
  | depth + 1, bs =>
      (parseBoxes bs).bind fun boxes => boxes.mapM (openBox containers (parseTree depth))

/-- The payload of the first box at a path. -/
def payloadAt : List FourCc → List BoxTree → Option (List UInt8)
  | [], _ => none
  | type :: path, trees =>
      match trees.find? (·.type == type.bytes) with
      | some (.leaf _ payload) => if path = [] then some payload else none
      | some (.node _ _ children) => payloadAt path children
      | none => none

/-- The byte string is read as these boxes, whatever boxes follow it. -/
def Parses (depth : ℕ) (bs : List UInt8) (trees : List BoxTree) : Prop :=
  ∀ rest later, parseTree containers depth rest = some later →
    parseTree containers depth (bs ++ rest) = some (trees ++ later)

namespace Parses

variable {containers} {depth size : ℕ} {bs cs payload head : List UInt8} {trees later : List BoxTree}
  {type : FourCc}

theorem parse (h : Parses containers (depth + 1) bs trees) :
    parseTree containers (depth + 1) bs = some trees := by
  have hnil : parseTree containers (depth + 1) [] = some [] := by
    rw [parseTree, parseBoxes_nil]
    rfl
  simpa using h [] [] hnil

theorem append (h : Parses containers depth bs trees) (h' : Parses containers depth cs later) :
    Parses containers depth (bs ++ cs) (trees ++ later) := by
  intro rest after hrest
  rw [List.append_assoc, List.append_assoc]
  exact h _ _ (h' _ _ hrest)

/-- One box, as it is opened. -/
theorem box {tree : BoxTree} (hsize : 8 + payload.length < 2 ^ 32)
    (hopen : openBox containers (parseTree containers depth) ⟨type.bytes, payload⟩ = some tree) :
    Parses containers (depth + 1) (be 4 (8 + payload.length) ++ (type.bytes ++ payload)) [tree] := by
  intro rest later hrest
  obtain ⟨boxes, hboxes, hlater⟩ := Option.bind_eq_some_iff.mp hrest
  rw [List.append_assoc, List.append_assoc, parseTree, parseBoxes_cons type payload rest hsize,
    hboxes, Option.map_some, Option.bind_some, List.mapM_cons, hopen, hlater]
  rfl

theorem leaf (hsize : 8 + payload.length < 2 ^ 32) (htype : containers type.bytes = none) :
    Parses containers (depth + 1) (be 4 (8 + payload.length) ++ (type.bytes ++ payload))
      [.leaf type.bytes payload] :=
  box hsize (by simp only [openBox, htype])

theorem node (hsize : 8 + (head ++ bs).length < 2 ^ 32)
    (htype : containers type.bytes = some head.length)
    (h : Parses containers (depth + 1) bs trees) :
    Parses containers (depth + 2) (be 4 (8 + (head ++ bs).length) ++ (type.bytes ++ (head ++ bs)))
      [.node type.bytes head trees] := by
  refine box hsize ?_
  simp only [openBox, htype]
  rw [if_pos (by simp), List.drop_left, List.take_left, h.parse, Option.map_some]

end Parses

/-! ### A box at a path -/

/-- The byte string is read as boxes, and the one at the path has this payload. -/
def Holds (depth : ℕ) (bs : List UInt8) (path : List FourCc) (payload : List UInt8) : Prop :=
  ∃ trees, Parses containers depth bs trees ∧ payloadAt path trees = some payload

namespace Holds

variable {containers} {depth : ℕ} {bs cs payload head : List UInt8} {trees : List BoxTree}
  {type : FourCc} {path : List FourCc}

theorem leaf (hsize : 8 + payload.length < 2 ^ 32) (htype : containers type.bytes = none) :
    Holds containers (depth + 1) (be 4 (8 + payload.length) ++ (type.bytes ++ payload)) [type]
      payload :=
  ⟨_, Parses.leaf hsize htype, by simp [payloadAt, BoxTree.type]⟩

theorem node (hsize : 8 + (head ++ bs).length < 2 ^ 32)
    (htype : containers type.bytes = some head.length)
    (h : Holds containers (depth + 1) bs path payload) :
    Holds containers (depth + 2) (be 4 (8 + (head ++ bs).length) ++ (type.bytes ++ (head ++ bs)))
      (type :: path) payload := by
  obtain ⟨trees, hparses, hpath⟩ := h
  exact ⟨_, Parses.node hsize htype hparses, by simpa [payloadAt, BoxTree.type] using hpath⟩

/-- Behind boxes of other types. -/
theorem behind (h : Holds containers depth bs (type :: path) payload)
    (hbefore : Parses containers depth cs trees) (hother : ∀ tree ∈ trees, tree.type ≠ type.bytes) :
    Holds containers depth (cs ++ bs) (type :: path) payload := by
  obtain ⟨later, hparses, hpath⟩ := h
  refine ⟨_, hbefore.append hparses, ?_⟩
  have hskip : trees.find? (·.type == type.bytes) = none :=
    List.find?_eq_none.mpr fun tree htree => by simpa using hother tree htree
  rw [payloadAt, List.find?_append, hskip, Option.none_or]
  exact hpath

/-- In front of any boxes. -/
theorem before (h : Holds containers depth bs path payload)
    (hafter : Parses containers depth cs trees) : Holds containers depth (bs ++ cs) path payload := by
  obtain ⟨first, hparses, hpath⟩ := h
  refine ⟨_, hparses.append hafter, ?_⟩
  cases path with
  | nil => cases hpath
  | cons type path =>
      rw [payloadAt] at hpath ⊢
      cases hfind : first.find? (·.type == type.bytes) with
      | none =>
          rw [hfind] at hpath
          cases hpath
      | some tree => rwa [List.find?_append, hfind, Option.some_or, ← hfind]

theorem parse (h : Holds containers (depth + 1) bs path payload) :
    (parseTree containers (depth + 1) bs).bind (payloadAt path) = some payload := by
  obtain ⟨trees, hparses, hpath⟩ := h
  rw [hparses.parse, Option.bind_some, hpath]

end Holds

end Bmff
