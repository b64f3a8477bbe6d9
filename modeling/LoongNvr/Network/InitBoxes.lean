import LoongNvr.Network.MediaSegment
import LoongNvr.Support.Bmff
import LoongNvr.Support.DecoderRecord
import LoongNvr.Support.Rbsp
import Mathlib.Tactic.IntervalCases

/-!
# Network — InitBoxes

What a player reads of the init segments of `Fmp4Muxer`: boxes in boxes, six levels down the record
that configures the decoder.

* `configOf`: the record of a segment.
* `describesH264`: the record of an H.264 segment gives back the parameter sets and the profile.
* `describesH265_iff`: the one of an H.265 segment gives back the parameter sets, but the profile
  only of an SPS whose profile_tier_level repeats the byte in front of it: `MakeHvcC` reads it one
  byte too early, and with the emulation prevention bytes in it.
-/

namespace LoongNvr.Network
open Support Bmff DecoderRecord

namespace Fmp4Muxer

/-- The boxes that hold boxes: behind nothing, behind a version, flags and a count, or behind the
fields of a visual sample entry. -/
def containers : Containers := fun type =>
  if type ∈ [FourCc.bytes ⟨'m', 'o', 'o', 'v'⟩, FourCc.bytes ⟨'t', 'r', 'a', 'k'⟩,
      FourCc.bytes ⟨'m', 'd', 'i', 'a'⟩, FourCc.bytes ⟨'m', 'i', 'n', 'f'⟩,
      FourCc.bytes ⟨'d', 'i', 'n', 'f'⟩, FourCc.bytes ⟨'s', 't', 'b', 'l'⟩,
      FourCc.bytes ⟨'m', 'v', 'e', 'x'⟩] then some 0
  else if type ∈ [FourCc.bytes ⟨'s', 't', 's', 'd'⟩, FourCc.bytes ⟨'d', 'r', 'e', 'f'⟩] then some 8
  else if type ∈ [FourCc.bytes ⟨'a', 'v', 'c', '1'⟩, FourCc.bytes ⟨'h', 'e', 'v', '1'⟩] then some 78
  else none

/-- The payload of a configuration box, if the segment is boxes in boxes. -/
def configOf (entry config : FourCc) (segment : List UInt8) : Option (List UInt8) :=
  (parseTree containers 8 segment).bind (payloadAt
    [⟨'m', 'o', 'o', 'v'⟩, ⟨'t', 'r', 'a', 'k'⟩, ⟨'m', 'd', 'i', 'a'⟩, ⟨'m', 'i', 'n', 'f'⟩,
      ⟨'s', 't', 'b', 'l'⟩, ⟨'s', 't', 's', 'd'⟩, entry, config])

/-! ### The boxes of an init segment -/

section Boxes

variable {type entry config : FourCc} {depth : ℕ} {payload record head bs : List UInt8}
  {trees : List BoxTree} {path : List FourCc} {width height : UInt16}

theorem parses_leaf (hsize : 8 + payload.length < 2 ^ 32) (htype : containers type.bytes = none) :
    Parses containers (depth + 1) (makeBox type payload) [.leaf type.bytes payload] := by
  rw [makeBox_eq hsize]
  exact Parses.leaf hsize htype

theorem parses_node (hsize : 8 + (head ++ bs).length < 2 ^ 32)
    (htype : containers type.bytes = some head.length)
    (h : Parses containers (depth + 1) bs trees) :
    Parses containers (depth + 2) (makeBox type (head ++ bs)) [.node type.bytes head trees] := by
  rw [makeBox_eq hsize]
  exact Parses.node hsize htype h

theorem holds_leaf (hsize : 8 + payload.length < 2 ^ 32) (htype : containers type.bytes = none) :
    Holds containers (depth + 1) (makeBox type payload) [type] payload := by
  rw [makeBox_eq hsize]
  exact Holds.leaf hsize htype

theorem holds_node (hsize : 8 + (head ++ bs).length < 2 ^ 32)
    (htype : containers type.bytes = some head.length)
    (h : Holds containers (depth + 1) bs path payload) :
    Holds containers (depth + 2) (makeBox type (head ++ bs)) (type :: path) payload := by
  rw [makeBox_eq hsize]
  exact Holds.node hsize htype h

/-- A full box that is not looked into. -/
theorem parses_full {version : UInt8} {flags : UInt32} (hsize : 12 + payload.length < 2 ^ 32)
    (htype : containers type.bytes = none) :
    Parses containers (depth + 1) (makeFullBox type version flags payload)
      [.leaf type.bytes (fullPayload version flags payload)] := by
  have hlen := length_fullPayload version flags payload
  exact parses_leaf (by change 8 + (fullPayload version flags payload).length < 2 ^ 32; omega) htype

theorem holds_box (hsize : 8 + bs.length < 2 ^ 32) (htype : containers type.bytes = some 0)
    (h : Holds containers (depth + 1) bs path payload) :
    Holds containers (depth + 2) (makeBox type bs) (type :: path) payload := by
  have hnil : [] ++ bs = bs := List.nil_append bs
  rw [← hnil] at hsize ⊢
  exact holds_node hsize htype h

theorem length_makeStsd :
    (makeStsd entry width height record).length = 102 + record.length := by
  simp [makeStsd, zeros, writeU16_eq, writeU32_eq]
  omega

theorem length_makeStbl : (makeStbl bs).length = 76 + bs.length := by
  simp [makeStbl, writeU32_eq]
  omega

theorem length_makeMinf : (makeMinf bs).length = 140 + bs.length := by
  simp [makeMinf, makeVmhd, makeDinf, length_makeStbl, writeU16_eq, writeU32_eq]
  omega

theorem length_makeMdia : (makeMdia bs).length = 225 + bs.length := by
  simp [makeMdia, makeMdhd, makeHdlr, length_makeMinf, writeU16_eq, writeU32_eq]
  omega

theorem length_makeTrak : (makeTrak width height bs).length = 325 + bs.length := by
  simp [makeTrak, makeTkhd, identityMatrix, length_makeMdia, writeU16_eq, writeU32_eq]
  omega

/-- The configuration box at the end of a sample entry, in its sample description. -/
theorem holds_makeStsd (hsize : record.length < 2 ^ 31)
    (hentry : containers entry.bytes = some 78) (hconfig : containers config.bytes = none) :
    Holds containers (depth + 3) (makeStsd entry width height (makeBox config record))
      [⟨'s', 't', 's', 'd'⟩, entry, config] record := by
  set fields := zeros 6 ++ writeU16 1 ++ zeros 16 ++ writeU16 width ++ writeU16 height ++
    writeU32 0x00480000 ++ writeU32 0x00480000 ++ writeU32 0 ++ writeU16 1 ++ zeros 32 ++
    writeU16 0x0018 ++ writeU16 0xFFFF with hfields
  have hlen : fields.length = 78 := by simp [hfields, zeros, writeU16_eq, writeU32_eq]
  have hinner : Holds containers (depth + 1) (makeBox config record) [config] record :=
    holds_leaf (by omega) hconfig
  have hboxed : Holds containers (depth + 2) (makeBox entry (fields ++ makeBox config record))
      [entry, config] record :=
    holds_node (by simp only [List.length_append, hlen, length_makeBox]; omega)
      (by rw [hlen, hentry]) hinner
  have hhead : containers (FourCc.bytes ⟨'s', 't', 's', 'd'⟩) =
      some (0 :: (writeU24 0 ++ writeU32 1)).length := by decide
  have hwhole := holds_node (by
    simp only [List.length_append, List.length_cons, writeU24_eq, writeU32_eq, length_be, hlen,
      length_makeBox]
    omega) hhead hboxed
  simpa only [makeStsd, makeFullBox, List.append_assoc, List.cons_append, hfields] using hwhole

theorem holds_makeStbl (hsize : bs.length < 2 ^ 31)
    (h : Holds containers (depth + 1) bs path payload) :
    Holds containers (depth + 2) (makeStbl bs) (⟨'s', 't', 'b', 'l'⟩ :: path) payload := by
  refine holds_box ?_ (by decide) ?_
  · simp [writeU32_eq]
    omega
  · exact (((h.before (parses_full (by simp [writeU32_eq]) (by decide))).before
      (parses_full (by simp [writeU32_eq]) (by decide))).before
      (parses_full (by simp [writeU32_eq]) (by decide))).before
      (parses_full (by simp [writeU32_eq]) (by decide))

theorem parses_box (hsize : 8 + bs.length < 2 ^ 32) (htype : containers type.bytes = some 0)
    (h : Parses containers (depth + 1) bs trees) :
    Parses containers (depth + 2) (makeBox type bs) [.node type.bytes [] trees] := by
  have hnil : [] ++ bs = bs := List.nil_append bs
  rw [← hnil] at hsize ⊢
  exact parses_node hsize htype h

theorem parses_makeDinf : ∃ children, Parses containers (depth + 3) makeDinf
    [.node (FourCc.bytes ⟨'d', 'i', 'n', 'f'⟩) [] children] := by
  have hurl : Parses containers (depth + 1) (makeFullBox ⟨'u', 'r', 'l', ' '⟩ 0 1 [])
      [.leaf (FourCc.bytes ⟨'u', 'r', 'l', ' '⟩) (fullPayload 0 1 [])] :=
    parses_full (by simp) (by decide)
  have hhead : containers (FourCc.bytes ⟨'d', 'r', 'e', 'f'⟩) =
      some (0 :: (writeU24 0 ++ writeU32 1)).length := by decide
  have hdref := parses_node (by simp [writeU24_eq, writeU32_eq]) hhead hurl
  exact ⟨_, parses_box (by simp [writeU32_eq]) (by decide) hdref⟩

theorem parses_makeMvex : ∃ children, Parses containers (depth + 2) makeMvex
    [.node (FourCc.bytes ⟨'m', 'v', 'e', 'x'⟩) [] children] :=
  ⟨_, parses_box (by simp [writeU32_eq]) (by decide)
    (parses_full (by simp [writeU32_eq]) (by decide))⟩

theorem holds_makeMinf (hsize : bs.length < 2 ^ 31)
    (h : Holds containers (depth + 2) bs path payload) :
    Holds containers (depth + 4) (makeMinf bs) (⟨'m', 'i', 'n', 'f'⟩ :: ⟨'s', 't', 'b', 'l'⟩ :: path)
      payload := by
  obtain ⟨children, hdinf⟩ := parses_makeDinf
  refine holds_box ?_ (by decide) ?_
  · simp [makeVmhd, makeDinf, length_makeStbl, writeU16_eq, writeU32_eq]
    omega
  · refine (holds_makeStbl hsize h).behind ((parses_full ?_ ?_).append hdinf) ?_
    · simp [writeU16_eq]
    · decide
    · simp only [List.cons_append, List.nil_append, List.forall_mem_cons, BoxTree.type]
      decide

theorem holds_makeMdia (hsize : bs.length < 2 ^ 31)
    (h : Holds containers (depth + 2) bs path payload) :
    Holds containers (depth + 5) (makeMdia bs)
      (⟨'m', 'd', 'i', 'a'⟩ :: ⟨'m', 'i', 'n', 'f'⟩ :: ⟨'s', 't', 'b', 'l'⟩ :: path) payload := by
  refine holds_box ?_ (by decide) ?_
  · simp [makeMdhd, makeHdlr, length_makeMinf, writeU16_eq, writeU32_eq]
    omega
  · refine (holds_makeMinf hsize h).behind ((parses_full ?_ ?_).append (parses_full ?_ ?_)) ?_
    · simp [writeU16_eq, writeU32_eq]
    · decide
    · simp [writeU32_eq]
    · decide
    · simp only [List.cons_append, List.nil_append, List.forall_mem_cons, BoxTree.type]
      decide

theorem holds_makeTrak (hsize : bs.length < 2 ^ 31)
    (h : Holds containers (depth + 2) bs path payload) :
    Holds containers (depth + 6) (makeTrak width height bs)
      (⟨'t', 'r', 'a', 'k'⟩ :: ⟨'m', 'd', 'i', 'a'⟩ :: ⟨'m', 'i', 'n', 'f'⟩ ::
        ⟨'s', 't', 'b', 'l'⟩ :: path) payload := by
  refine holds_box ?_ (by decide) ?_
  · simp [makeTkhd, identityMatrix, length_makeMdia, writeU16_eq, writeU32_eq]
    omega
  · refine (holds_makeMdia hsize h).behind (parses_full ?_ ?_) ?_
    · simp [identityMatrix, writeU16_eq, writeU32_eq]
    · decide
    · simp only [List.forall_mem_cons, BoxTree.type]
      decide

theorem holds_makeMoov (hsize : bs.length < 2 ^ 31)
    (h : Holds containers (depth + 2) bs path payload) :
    Holds containers (depth + 7) (makeMoov width height bs)
      (⟨'m', 'o', 'o', 'v'⟩ :: ⟨'t', 'r', 'a', 'k'⟩ :: ⟨'m', 'd', 'i', 'a'⟩ ::
        ⟨'m', 'i', 'n', 'f'⟩ :: ⟨'s', 't', 'b', 'l'⟩ :: path) payload := by
  obtain ⟨children, hmvex⟩ := parses_makeMvex
  refine holds_box ?_ (by decide) ?_
  · simp [makeMvhd, makeMvex, identityMatrix, zeros, length_makeTrak, writeU16_eq, writeU32_eq]
    omega
  · refine ((holds_makeTrak hsize h).behind (parses_full ?_ ?_) ?_).before hmvex
    · simp [identityMatrix, zeros, writeU16_eq, writeU32_eq]
    · decide
    · simp only [List.forall_mem_cons, BoxTree.type]
      decide

/-- **The record of an init segment** is found, six levels down. -/
theorem configOf_eq (hsize : record.length < 2 ^ 30)
    (hentry : containers entry.bytes = some 78) (hconfig : containers config.bytes = none) :
    configOf entry config (makeFtyp ++
      makeMoov width height (makeStsd entry width height (makeBox config record))) = some record := by
  have hstsd : Holds containers 3 (makeStsd entry width height (makeBox config record))
      [⟨'s', 't', 's', 'd'⟩, entry, config] record :=
    holds_makeStsd (by omega) hentry hconfig
  have hmoov : Holds containers 8
      (makeMoov width height (makeStsd entry width height (makeBox config record))) _ record :=
    holds_makeMoov (by rw [length_makeStsd, length_makeBox]; omega) hstsd
  refine (hmoov.behind (parses_leaf ?_ ?_) ?_).parse
  · simp [writeU32_eq]
  · decide
  · simp only [List.forall_mem_cons, BoxTree.type]
    decide

end Boxes

/-! ### The records -/

/-- The payload of `avcC` -/
def avcRecord (sps pps : List UInt8) : List UInt8 :=
  [1, sps.getD 1 0, sps.getD 2 0, sps.getD 3 0, 0xFF, 0xE1] ++
    writeU16 (UInt16.ofNat sps.length) ++ sps ++
    [1] ++ writeU16 (UInt16.ofNat pps.length) ++ pps

/-- The payload of `hvcC` -/
def hevcRecord (vps sps pps : List UInt8) : List UInt8 :=
  [1] ++ profileTierLevel sps ++ writeU16 0xF000 ++ [0xFC, 0xFC, 0xF8, 0xF8] ++ writeU16 0 ++
    [0x0F, 3] ++ hvcCArray 0x20 vps ++ hvcCArray 0x21 sps ++ hvcCArray 0x22 pps

/-- The segment's record gives back the parameter sets and three bytes of the SPS. -/
def DescribesH264 (sps pps segment : List UInt8) : Prop :=
  (configOf ⟨'a', 'v', 'c', '1'⟩ ⟨'a', 'v', 'c', 'C'⟩ segment).bind readAvc = some
    { profile := sps.getD 1 0
      compatibility := sps.getD 2 0
      level := sps.getD 3 0
      lengthSize := 4
      sps := [sps]
      pps := [pps]
      ext := [] }

/-- The profile of an H.265 SPS: behind the two bytes of the NAL header and one byte, once the
emulation prevention bytes are left out. -/
def spsProfile (sps : List UInt8) : Option ProfileTierLevel :=
  readProfile ((Rbsp.unescape (sps.drop 2)).drop 1)

/-- The segment's record gives back the parameter sets and the profile of the SPS. -/
def DescribesH265 (vps sps pps segment : List UInt8) : Prop :=
  ∃ profile, spsProfile sps = some profile ∧
    (configOf ⟨'h', 'e', 'v', '1'⟩ ⟨'h', 'v', 'c', 'C'⟩ segment).bind readHevc = some
      { profile := profile
        lengthSize := 4
        arrays := [(32, [vps]), (33, [sps]), (34, [pps])] }

theorem readAvc_avcRecord {sps pps : List UInt8} (hsps : sps.length < 2 ^ 16)
    (hpps : pps.length < 2 ^ 16) :
    readAvc (avcRecord sps pps) = some
      { profile := sps.getD 1 0
        compatibility := sps.getD 2 0
        level := sps.getD 3 0
        lengthSize := 4
        sps := [sps]
        pps := [pps]
        ext := [] } := by
  rw [← readAvc_single hsps hpps, avcRecord, writeU16_ofNat hsps, writeU16_ofNat hpps]
  simp only [List.append_assoc, List.cons_append, List.nil_append, List.append_nil]

/-- **H.264**: the init segment describes its parameter sets. -/
theorem describesH264 {sps pps : List UInt8} {width height : UInt16} (hsps : sps.length < 2 ^ 16)
    (hpps : pps.length < 2 ^ 16) (hmade : makeH264InitSegment sps pps width height ≠ []) :
    DescribesH264 sps pps (makeH264InitSegment sps pps width height) := by
  have hlong : ¬ (sps.length < 4 ∨ pps = []) := fun h => hmade (by rw [makeH264InitSegment, if_pos h])
  have hsize : (avcRecord sps pps).length < 2 ^ 30 := by
    simp only [avcRecord, List.length_append, List.length_cons, List.length_nil, writeU16_eq,
      length_be]
    omega
  have hconfig : configOf ⟨'a', 'v', 'c', '1'⟩ ⟨'a', 'v', 'c', 'C'⟩
      (makeH264InitSegment sps pps width height) = some (avcRecord sps pps) := by
    rw [makeH264InitSegment, if_neg hlong]
    exact configOf_eq hsize (by decide) (by decide)
  rw [DescribesH264, hconfig, Option.bind_some, readAvc_avcRecord hsps hpps]

/-! ### The H.265 record -/

theorem length_profileTierLevel (sps : List UInt8) : (profileTierLevel sps).length = 12 := by
  unfold profileTierLevel
  split
  · simp only [List.length_append, List.length_cons, List.length_nil, List.length_take,
      List.length_drop]
    omega
  · rfl

/-- The first byte is taken apart and put together again. -/
theorem byte_of_fields (b : UInt8) :
    (b >>> 6 &&& 0x03) <<< 6 ||| (b >>> 5 &&& 0x01) <<< 5 ||| b &&& 0x1F = b := by
  apply UInt8.eq_of_toBitVec_eq
  ext i hi
  interval_cases i <;> simp

/-- The profile is written as it stands behind the NAL header. -/
theorem profileTierLevel_eq {sps : List UInt8} (h : 15 < sps.length) :
    profileTierLevel sps = (sps.drop 2).take 12 := by
  rw [profileTierLevel, if_pos h]
  simp only [byte_of_fields]
  match sps, h with
  | _ :: _ :: _ :: _ :: _ :: _ :: _ :: _ :: _ :: _ :: _ :: _ :: _ :: _ :: _, _ => rfl

theorem readArrays_hvcCArray {n : ℕ} {type : UInt8} {nal rest : List UInt8}
    (h : nal.length < 2 ^ 16) :
    readArrays (n + 1) (hvcCArray type nal ++ rest) =
      (readArrays n rest).map ((type &&& 0x3F, [nal]) :: ·) := by
  have hone : writeU16 1 = be 2 1 := rfl
  rw [← readArrays_cons h, hvcCArray, hone, writeU16_ofNat h]
  simp only [List.append_assoc, List.cons_append, List.nil_append]

/-- Where the fields of the record stand. -/
theorem hevcRecord_fields (vps sps pps : List UInt8) :
    23 ≤ (hevcRecord vps sps pps).length ∧ (hevcRecord vps sps pps).getD 0 0 = 1 ∧
      ((hevcRecord vps sps pps).drop 1).take 12 = profileTierLevel sps ∧
      (hevcRecord vps sps pps).getD 21 0 = 0x0F ∧ (hevcRecord vps sps pps).getD 22 0 = 3 ∧
      (hevcRecord vps sps pps).drop 23 =
        hvcCArray 0x20 vps ++ hvcCArray 0x21 sps ++ hvcCArray 0x22 pps := by
  have hlen := length_profileTierLevel sps
  rw [hevcRecord]
  generalize profileTierLevel sps = profile at hlen
  match profile, hlen with
  | [_, _, _, _, _, _, _, _, _, _, _, _], _ =>
      refine ⟨?_, rfl, rfl, rfl, rfl, ?_⟩
      · simp [writeU16_eq]
        omega
      · simp [writeU16]

theorem readHevc_hevcRecord {vps sps pps : List UInt8} {profile : ProfileTierLevel}
    (hvps : vps.length < 2 ^ 16) (hsps : sps.length < 2 ^ 16) (hpps : pps.length < 2 ^ 16)
    (hprofile : readProfile (profileTierLevel sps) = some profile) :
    readHevc (hevcRecord vps sps pps) = some
      { profile := profile
        lengthSize := 4
        arrays := [(32, [vps]), (33, [sps]), (34, [pps])] } := by
  obtain ⟨hlen, hversion, htake, hsize, hcount, harrays⟩ := hevcRecord_fields vps sps pps
  have hptl := length_profileTierLevel sps
  have hread : readProfile ((hevcRecord vps sps pps).drop 1) = some profile := by
    rw [← hprofile, readProfile_eq_iff (by rw [List.length_drop]; omega) hptl.ge, htake,
      List.take_of_length_le hptl.le]
  have hsets : readArrays 3 ((hevcRecord vps sps pps).drop 23) =
      some [(32, [vps]), (33, [sps]), (34, [pps])] := by
    rw [harrays, List.append_assoc, readArrays_hvcCArray hvps, readArrays_hvcCArray hsps,
      ← List.append_nil (hvcCArray 0x22 pps), readArrays_hvcCArray hpps]
    rfl
  have hthree : (3 : UInt8).toNat = 3 := rfl
  rw [readHevc, if_pos ⟨hlen, hversion⟩, hread, hcount, hthree, hsets, hsize]
  rfl

/-! ### The profile of an SPS -/

/-- An H.265 SPS NAL unit: two header bytes and, escaped, a payload that is long enough for one
byte and a profile_tier_level. -/
structure SpsNal where
  header : List UInt8
  rbsp : List UInt8
  header_length : header.length = 2
  rbsp_length : 13 ≤ rbsp.length

namespace SpsNal

variable (sps : SpsNal)

def bytes : List UInt8 := sps.header ++ Rbsp.escape sps.rbsp

/-- The profile_tier_level repeats the byte in front of it: all thirteen bytes are one byte that
needs no escape, or they are the pattern 0, 0, 0, 3, 0, 3, … that one escape makes. -/
def Repeats : Prop :=
  15 < sps.bytes.length ∧ (∃ b, b ≠ 0 ∧ sps.rbsp.take 13 = List.replicate 13 b) ∨
    sps.rbsp.take 13 = [0, 0, 0, 3, 0, 3, 0, 3, 0, 3, 0, 3, 0]

theorem drop_bytes : sps.bytes.drop 2 = Rbsp.escape sps.rbsp := by
  rw [bytes, List.drop_left' sps.header_length]

theorem spsProfile_bytes : spsProfile sps.bytes = readProfile (sps.rbsp.drop 1) := by
  rw [spsProfile, drop_bytes, Rbsp.unescape_escape]

theorem length_bytes : sps.bytes.length = 2 + (Rbsp.escape sps.rbsp).length := by
  rw [bytes, List.length_append, sps.header_length]

/-- **The profile that is written** is the one of the SPS. -/
theorem profileTierLevel_eq_iff :
    readProfile (profileTierLevel sps.bytes) = spsProfile sps.bytes ↔ sps.Repeats := by
  have hrbsp := sps.rbsp_length
  have hdrop : 12 ≤ (sps.rbsp.drop 1).length := by
    rw [List.length_drop]
    omega
  rw [spsProfile_bytes, readProfile_eq_iff (length_profileTierLevel _).ge hdrop]
  by_cases hlong : 15 < sps.bytes.length
  · have hpattern : 0 :: 0 :: 0 :: 3 :: 0 :: Rbsp.zigzag 8 = [0, 0, 0, 3, 0, 3, 0, 3, 0, 3, 0, 3, 0] :=
      rfl
    rw [profileTierLevel_eq hlong, drop_bytes, List.take_take, Nat.min_self,
      Rbsp.escape_take_eq_iff (n := 8) hrbsp, hpattern, Repeats]
    simp only [hlong, true_and]
  · -- zeros are written, and zeros in the SPS would have made it longer
    have hshort : ∀ a c rest, c ≤ 3 → sps.rbsp ≠ a :: 0 :: 0 :: c :: rest := by
      intro a c rest hc heq
      have hlonger := Rbsp.length_lt_escape a rest hc
      rw [← heq] at hlonger
      rw [length_bytes] at hlong
      omega
    constructor
    · intro h
      obtain ⟨a, rest, hcons⟩ := List.exists_cons_of_length_pos (l := sps.rbsp) (by omega)
      have hzeros : rest.take 12 = zeros 12 := by
        rw [profileTierLevel, if_neg hlong, hcons] at h
        exact h.symm
      have hrest : rest = zeros 12 ++ rest.drop 12 := by rw [← hzeros, List.take_append_drop]
      exact absurd (hcons.trans (congrArg (a :: ·) hrest))
        (hshort a 0 (zeros 9 ++ rest.drop 12) (by decide))
    · rintro (⟨h, -⟩ | h)
      · exact absurd h hlong
      · exact absurd (by
          rw [← List.take_append_drop 13 sps.rbsp, h]
          rfl) (hshort 0 3 _ (by decide))

/-- **The init segment** of an SPS describes its parameter sets exactly when the SPS repeats. -/
theorem describesH265_iff {vps pps : List UInt8} {width height : UInt16}
    (hvps : vps.length < 2 ^ 16) (hsps : sps.bytes.length < 2 ^ 16) (hpps : pps.length < 2 ^ 16)
    (hmade : makeH265InitSegment vps sps.bytes pps width height ≠ []) :
    DescribesH265 vps sps.bytes pps (makeH265InitSegment vps sps.bytes pps width height) ↔
      sps.Repeats := by
  have hsome : ¬ (vps = [] ∨ sps.bytes = [] ∨ pps = []) :=
    fun h => hmade (by rw [makeH265InitSegment, if_pos h])
  have hsize : (hevcRecord vps sps.bytes pps).length < 2 ^ 30 := by
    simp only [hevcRecord, hvcCArray, List.length_append, List.length_cons, List.length_nil,
      length_profileTierLevel, writeU16_eq, length_be]
    omega
  have hconfig : configOf ⟨'h', 'e', 'v', '1'⟩ ⟨'h', 'v', 'c', 'C'⟩
      (makeH265InitSegment vps sps.bytes pps width height) =
        some (hevcRecord vps sps.bytes pps) := by
    rw [makeH265InitSegment, if_neg hsome]
    exact configOf_eq hsize (by decide) (by decide)
  obtain ⟨profile, hprofile⟩ :
      ∃ profile, readProfile (profileTierLevel sps.bytes) = some profile :=
    ⟨_, if_pos (length_profileTierLevel _).ge⟩
  rw [← sps.profileTierLevel_eq_iff, DescribesH265, hconfig, Option.bind_some,
    readHevc_hevcRecord hvps hsps hpps hprofile, hprofile]
  constructor
  · rintro ⟨described, hsps, heq⟩
    obtain rfl : profile = described := by simpa using heq
    exact hsps.symm
  · intro h
    exact ⟨profile, h.symm, rfl⟩

end SpsNal

/-- **The init segments**: both describe their parameter sets exactly when the H.265 SPS
repeats. -/
theorem initSegments_iff (vps : List UInt8) (sps : SpsNal) (pps avcSps avcPps : List UInt8)
    (width height : UInt16) (hvps : vps.length ≤ 65535) (hsps : sps.bytes.length ≤ 65535)
    (hpps : pps.length ≤ 65535) (havcSps : avcSps.length ≤ 65535) (havcPps : avcPps.length ≤ 65535)
    (hmade : makeH265InitSegment vps sps.bytes pps width height ≠ [])
    (havcMade : makeH264InitSegment avcSps avcPps width height ≠ []) :
    DescribesH265 vps sps.bytes pps (makeH265InitSegment vps sps.bytes pps width height) ∧
        DescribesH264 avcSps avcPps (makeH264InitSegment avcSps avcPps width height) ↔
      sps.Repeats := by
  have havc := describesH264 (by omega) (by omega) havcMade
  rw [and_iff_left havc]
  exact sps.describesH265_iff (by omega) (by omega) (by omega) hmade

/-- An SPS of ones. -/
theorem initSegments_ones :
    DescribesH265 [0x40] ([0x42, 0x01] ++ Rbsp.escape (List.replicate 14 1)) [0x44]
        (makeH265InitSegment [0x40] ([0x42, 0x01] ++ Rbsp.escape (List.replicate 14 1)) [0x44] 2 2) ∧
      DescribesH264 [0x67, 0x42, 0x00, 0x1E] [0x68]
        (makeH264InitSegment [0x67, 0x42, 0x00, 0x1E] [0x68] 2 2) :=
  (initSegments_iff [0x40] ⟨[0x42, 0x01], List.replicate 14 1, rfl, by decide⟩ [0x44]
    [0x67, 0x42, 0x00, 0x1E] [0x68] 2 2 (by decide) (by decide) (by decide) (by decide) (by decide)
    (by decide) (by decide)).mpr (.inl ⟨by decide, 1, by decide, by decide⟩)

/-- The SPS of a camera: Main profile, level 4. -/
def mainSps : SpsNal where
  header := [0x42, 0x01]
  rbsp := [0x01, 0x01, 0x60, 0, 0, 0, 0x90, 0, 0, 0, 0, 0, 0x78, 0xA0, 0x03, 0xC0, 0x80]
  header_length := rfl
  rbsp_length := by decide

/-- Its level is written as 0. -/
theorem initSegments_refuted :
    makeH265InitSegment [0x40] mainSps.bytes [0x44] 2 2 ≠ [] ∧
      ¬ DescribesH265 [0x40] mainSps.bytes [0x44]
        (makeH265InitSegment [0x40] mainSps.bytes [0x44] 2 2) := by
  have hmade : makeH265InitSegment [0x40] mainSps.bytes [0x44] 2 2 ≠ [] := by decide
  refine ⟨hmade, fun h => ?_⟩
  have hrepeats := (mainSps.describesH265_iff (by decide) (by decide) (by decide) hmade).mp h
  rcases hrepeats with ⟨-, b, -, hb⟩ | hpattern
  · have hfirst : 0x01 = b := congrArg (·.getD 0 0) hb
    have hthird : 0x60 = b := congrArg (·.getD 2 0) hb
    exact absurd (hfirst.trans hthird.symm) (by decide)
  · exact absurd hpattern (by decide)

end Fmp4Muxer

end LoongNvr.Network
