import LoongNvr.Support.Buffer

/-!
# Support — Flv

The reader's side of an FLV file: a header, and tags between the sizes of the tags before them.

* `parseTags`: a byte string as tags that fill it exactly, each followed by its own size.
* `parseTags_cons`: what was written first is read first.
* `length_body_of_parseTags`: no body is longer than its size field can say.
* `readVideo`: the body of a video tag of the AVC codec.
-/

namespace Flv
open Support

/-- A tag; the stream it belongs to is always 0. -/
structure Tag where
  type : UInt8
  timestamp : ℕ
  body : List UInt8
  deriving DecidableEq, Repr, Inhabited

/-- The tags a byte string is made of: eleven bytes with the type, the size of the body and the
timestamp, whose top byte comes last, then the body, and the size of it all in four bytes. -/
def parseTags (bs : List UInt8) : Option (List Tag) :=
  if bs = [] then some []
  else if 15 + field bs 1 3 ≤ bs.length ∧ field bs 8 3 = 0 ∧
      field bs (11 + field bs 1 3) 4 = 11 + field bs 1 3 then
    (parseTags (bs.drop (15 + field bs 1 3))).map
      ({ type := bs.headD 0
         timestamp := field bs 7 1 * 256 ^ 3 + field bs 4 3
         body := (bs.drop 11).take (field bs 1 3) } :: ·)
  else none
  termination_by bs.length
  decreasing_by simp only [List.length_drop]; omega

/-- A file of video tags only: the signature, the version, the flags, the offset of the first tag
and the size of a tag before it. -/
def parseFile (bs : List UInt8) : Option (List Tag) :=
  if bs.take 5 = [0x46, 0x4C, 0x56, 1, 1] ∧ field bs 5 4 = 9 ∧ 13 ≤ bs.length ∧ field bs 9 4 = 0 then
    parseTags (bs.drop 13)
  else none

/-- The body of an AVC video tag. -/
structure Video where
  frameType : ℕ
  codecId : ℕ
  packetType : UInt8
  compositionTime : List UInt8
  data : List UInt8
  deriving DecidableEq, Repr

def readVideo : List UInt8 → Option Video
  | head :: packetType :: a :: b :: c :: data =>
      some
        { frameType := (head >>> 4).toNat
          codecId := (head &&& 0x0F).toNat
          packetType := packetType
          compositionTime := [a, b, c]
          data := data }
  | _ => none

/-- A tag as it is written. -/
def Tag.bytes (tag : Tag) : List UInt8 :=
  [tag.type] ++ (be 3 tag.body.length ++ (be 3 tag.timestamp ++
    (be 1 (tag.timestamp / 256 ^ 3) ++ (be 3 0 ++ (tag.body ++ be 4 (11 + tag.body.length))))))

@[simp] theorem parseTags_nil : parseTags [] = some [] := by rw [parseTags, if_pos rfl]

theorem Tag.length_bytes (tag : Tag) : tag.bytes.length = tag.body.length + 15 := by
  simp only [Tag.bytes, List.length_append, length_be, List.length_singleton]
  omega

/-! ### Reading what was written -/

theorem timestamp_split {t : ℕ} (h : t < 2 ^ 32) :
    t / 256 ^ 3 % 256 ^ 1 * 256 ^ 3 + t % 256 ^ 3 = t := by
  omega

/-- **A tag is read back**, whatever follows it, if its body and its timestamp fit their fields. -/
theorem parseTags_cons {tag : Tag} {rest : List UInt8} (hbody : tag.body.length < 2 ^ 24)
    (htime : tag.timestamp < 2 ^ 32) :
    parseTags (tag.bytes ++ rest) = (parseTags rest).map (tag :: ·) := by
  set bs := tag.bytes ++ rest with hbs
  have hlen : bs.length = 15 + tag.body.length + rest.length := by
    rw [hbs, List.length_append, Tag.length_bytes]
    omega
  have hne : bs ≠ [] := List.ne_nil_of_length_pos (by omega)
  have htype : bs.headD 0 = tag.type := rfl
  -- the first eleven bytes are written out, and each field is read at its place
  have hsize : field bs 1 3 = tag.body.length := by
    have hfield : field bs 1 3 = beNat (be 3 tag.body.length) := rfl
    rw [hfield, beNat_be_of_lt hbody]
  have hlow : field bs 4 3 = tag.timestamp % 256 ^ 3 := by
    have hfield : field bs 4 3 = beNat (be 3 tag.timestamp) := rfl
    rw [hfield, beNat_be]
  have hhigh : field bs 7 1 = tag.timestamp / 256 ^ 3 % 256 ^ 1 := by
    have hfield : field bs 7 1 = beNat (be 1 (tag.timestamp / 256 ^ 3)) := rfl
    rw [hfield, beNat_be]
  have hstream : field bs 8 3 = 0 := rfl
  have hafter : bs.drop 11 = tag.body ++ (be 4 (11 + tag.body.length) ++ rest) := by
    have hdrop : bs.drop 11 = tag.body ++ be 4 (11 + tag.body.length) ++ rest := rfl
    rw [hdrop, List.append_assoc]
  have hlast : field bs (11 + tag.body.length) 4 = 11 + tag.body.length := by
    have hfield : field bs (11 + tag.body.length) 4 =
        beNat (((bs.drop 11).drop tag.body.length).take 4) := by rw [List.drop_drop, field]
    rw [hfield, hafter, List.drop_left, List.take_left' (length_be 4 _),
      beNat_be_of_lt (by omega)]
  have hrest : bs.drop (15 + tag.body.length) = rest := by
    have hsplit : 15 + tag.body.length = 11 + (tag.body.length + 4) := by omega
    rw [hsplit, ← List.drop_drop, hafter, ← List.append_assoc,
      List.drop_left' (by simp)]
  rw [parseTags, if_neg hne, hsize, if_pos ⟨by omega, hstream, hlast⟩, hrest, htype, hlow, hhigh, timestamp_split htime, hafter,
    List.take_left]

/-- No body is longer than its size field can say. -/
theorem length_body_of_parseTags {bs : List UInt8} {tags : List Tag}
    (h : parseTags bs = some tags) : ∀ tag ∈ tags, tag.body.length < 2 ^ 24 := by
  fun_induction parseTags bs generalizing tags with
  | case1 => cases h; simp
  | case2 bs hne hfits ih =>
      obtain ⟨later, hlater, rfl⟩ := Option.map_eq_some_iff.mp h
      intro tag htag
      rcases List.mem_cons.mp htag with rfl | htag
      · exact lt_of_le_of_lt (List.length_take_le _ _) (field_lt bs 1 3)
      · exact ih hlater tag htag
  | case3 => cases h

theorem length_of_readVideo {body : List UInt8} {video : Video} (h : readVideo body = some video) :
    body.length = 5 + video.data.length := by
  unfold readVideo at h
  split at h
  · cases h
    simp only [List.length_cons]
    omega
  · cases h

end Flv
