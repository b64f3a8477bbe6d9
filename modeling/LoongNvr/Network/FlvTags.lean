import LoongNvr.Network.FlvMuxer
import LoongNvr.Support.DecoderRecord
import LoongNvr.Support.Flv
import Mathlib.Data.List.Forall2

/-!
# Network — FlvTags

What a player reads of the tags of `FlvMuxer`.

* `TagCall.Says`: the tag that is read says what the muxer was asked to write.
* `RoundTrip`: every tag is read so, alone and in a file of all of them.
* `roundTrip_iff`: it is so exactly when every body is shorter than 2^24 bytes and every parameter
  set shorter than 2^16; what is longer is cut off by its length field.
-/

namespace LoongNvr.Network
open Support

namespace FlvMuxer

/-- A tag the muxer is asked for. -/
inductive TagCall
  | sequenceHeader (sps pps : List UInt8)
  | video (data : List UInt8) (timestampMs : ℤ) (isKeyframe : Bool)

/-- The units of a buffer but for the parameter sets. -/
def pictureUnits (data : List UInt8) : List (List UInt8) :=
  ((parseAnnexB data).filter fun unit =>
    !(unit.type == kNalTypeSps || unit.type == kNalTypePps)).map (·.bytes data)

namespace TagCall

def bytes : TagCall → List UInt8
  | sequenceHeader sps pps => makeSequenceHeaderTag sps pps
  | video data timestampMs isKeyframe => makeVideoTag data timestampMs isKeyframe

/-- The tag is what was asked for. -/
def Says : TagCall → Flv.Tag → Prop
  | sequenceHeader sps pps, tag =>
      tag.type = 9 ∧ tag.timestamp = 0 ∧ ∃ record,
        Flv.readVideo tag.body = some
          { frameType := 1
            codecId := 7
            packetType := 0
            compositionTime := [0, 0, 0]
            data := record } ∧
        DecoderRecord.readAvc record = some
          { profile := sps.getD 1 0
            compatibility := sps.getD 2 0
            level := sps.getD 3 0
            lengthSize := 4
            sps := [sps]
            pps := [pps]
            ext := [] }
  | video data timestampMs isKeyframe, tag =>
      tag.type = 9 ∧ (tag.timestamp : ℤ) = timestampMs % 4294967296 ∧ ∃ payload,
        Flv.readVideo tag.body = some
          { frameType := if isKeyframe then 1 else 2
            codecId := 7
            packetType := 1
            compositionTime := [0, 0, 0]
            data := payload } ∧
        Bmff.splitLengths payload = some (pictureUnits data)

/-- What is written fits its length fields. -/
def Fits : TagCall → Prop
  | sequenceHeader sps pps => sps.length < 2 ^ 16 ∧ pps.length < 2 ^ 16
  | video data _ _ => 5 + ((pictureUnits data).map (4 + ·.length)).sum < 2 ^ 24

end TagCall

/-- The tags are read as they were asked for, each alone and all in a file. -/
structure RoundTrip (calls : List TagCall) : Prop where
  each : ∀ call ∈ calls, ∃ tag, Flv.parseTags call.bytes = some [tag] ∧
    call.bytes.length = tag.body.length + 15 ∧ call.Says tag
  all : ∃ tags, Flv.parseFile (makeFlvHeader ++ calls.flatMap (·.bytes)) = some tags ∧
    List.Forall₂ TagCall.Says calls tags

/-! ### The fields of a tag -/

/-- A tag as the muxer builds it, if its body fits. -/
theorem buildFlvTag_eq {tagType : UInt8} {data : List UInt8} {timestampMs : ℤ}
    (h : data.length < 2 ^ 24) :
    buildFlvTag tagType data timestampMs =
      Flv.Tag.bytes
        { type := tagType
          timestamp := (timestampMs % 4294967296).toNat
          body := data } := by
  set n := (timestampMs % 4294967296).toNat with hn
  have hsmall : n < 2 ^ 32 := by omega
  have hsize : (UInt32.ofNat data.length).toNat = data.length := by
    rw [UInt32.toNat_ofNat', Nat.mod_eq_of_lt (by omega)]
  have htime : (UInt32.ofNat n).toNat = n := by
    rw [UInt32.toNat_ofNat', Nat.mod_eq_of_lt hsmall]
  have hlow : writeU24 (UInt32.ofNat n &&& 0x00FFFFFF) = be 3 n := by
    have hmask : (UInt32.ofNat n &&& 0x00FFFFFF).toNat = n % 256 ^ 3 := by
      rw [UInt32.toNat_and, htime]
      exact Nat.and_two_pow_sub_one_eq_mod n 24
    rw [writeU24_eq, hmask, be_mod 3 3 _ le_rfl]
  have hhigh : [(UInt32.ofNat n >>> 24 &&& 0xFF).toUInt8] = be 1 (n / 256 ^ 3) := by
    rw [byte_of_word _ 24 (by decide), htime]
    simp [be]
  have hlast : writeU32 (11 + UInt32.ofNat data.length) = be 4 (11 + data.length) := by
    have hsum : (11 + UInt32.ofNat data.length).toNat = 11 + data.length := by
      rw [UInt32.toNat_add, hsize]
      exact Nat.mod_eq_of_lt (by change 11 + data.length < 2 ^ 32; omega)
    rw [writeU32_eq, hsum]
  have hbody : writeU24 (UInt32.ofNat data.length) = be 3 data.length := by
    rw [writeU24_eq, hsize]
  have hstream : writeU24 0 = be 3 0 := rfl
  simp only [buildFlvTag, ← hn, hbody, hlow, hhigh, hstream, hlast, Flv.Tag.bytes, List.append_assoc]

theorem annexBToAvcc_length (data : List UInt8) :
    (annexBToAvcc data).length = ((pictureUnits data).map (4 + ·.length)).sum := by
  rw [annexBToAvcc, length_lengthPrefixed, pictureUnits, List.map_map]
  rfl

/-- The payload is read back as the units. -/
theorem splitLengths_annexBToAvcc {data : List UInt8} (h : (annexBToAvcc data).length < 2 ^ 32) :
    Bmff.splitLengths (annexBToAvcc data) = some (pictureUnits data) := by
  refine splitLengths_lengthPrefixed (fun unit hunit => ?_) h
  rw [parseAnnexB_eq] at hunit
  exact length_bytes_of_mem (fun _ => rfl) hunit

theorem readVideo_body (head packetType : UInt8) (data : List UInt8) :
    Flv.readVideo ([head, packetType] ++ writeU24 0 ++ data) = some
      { frameType := (head >>> 4).toNat
        codecId := (head &&& 0x0F).toNat
        packetType := packetType
        compositionTime := [0, 0, 0]
        data := data } := rfl

namespace TagCall

variable {call : TagCall} {tag : Flv.Tag}

theorem sequenceHeader_made {sps pps : List UInt8} (hsps : 4 ≤ sps.length) (hpps : pps ≠ []) :
    bytes (.sequenceHeader sps pps) ≠ [] := by
  rw [bytes, makeSequenceHeaderTag, if_neg (by simp [hsps, hpps])]
  simp [buildFlvTag]

/-- **What fits is written as it was asked for.** -/
theorem exists_tag (hmade : call.bytes ≠ []) (h : call.Fits) :
    ∃ tag, call.bytes = tag.bytes ∧ tag.body.length < 2 ^ 24 ∧ tag.timestamp < 2 ^ 32 ∧
      call.Says tag := by
  cases call with
  | sequenceHeader sps pps =>
      obtain ⟨hsps, hpps⟩ := h
      rw [bytes, makeSequenceHeaderTag] at hmade ⊢
      split at hmade
      · exact absurd rfl hmade
      · next hlong =>
          set record := [0x01, sps.getD 1 0, sps.getD 2 0, sps.getD 3 0, 0xFF, 0xE1] ++
            (be 2 sps.length ++ (sps ++ (1 :: (be 2 pps.length ++ (pps ++ []))))) with hrecord
          set body := [kKeyframeType <<< 4 ||| kAvcCodecId, kAvcSequenceHeader] ++ writeU24 0 ++ record
            with hbody
          have hwritten : [kKeyframeType <<< 4 ||| kAvcCodecId, kAvcSequenceHeader] ++ writeU24 0 ++
              [0x01, sps.getD 1 0, sps.getD 2 0, sps.getD 3 0, 0xFF, 0xE1] ++
              writeU16 (UInt16.ofNat sps.length) ++ sps ++
              [0x01] ++ writeU16 (UInt16.ofNat pps.length) ++ pps = body := by
            rw [writeU16_ofNat hsps, writeU16_ofNat hpps, hbody, hrecord]
            simp only [List.append_assoc, List.cons_append, List.nil_append, List.append_nil]
          have hlen : body.length < 2 ^ 24 := by
            simp only [hbody, hrecord, List.length_append, List.length_cons, List.length_nil,
              length_be, writeU24]
            omega
          rw [if_neg hlong]
          simp only [hwritten]
          exact ⟨_, buildFlvTag_eq hlen, hlen, Nat.two_pow_pos 32, rfl, rfl, record, readVideo_body _ _ record,
            DecoderRecord.readAvc_single hsps hpps⟩
  | video data timestampMs isKeyframe =>
      rw [bytes, makeVideoTag] at hmade ⊢
      split at hmade
      · exact absurd rfl hmade
      · next hsome =>
          rw [if_neg hsome]
          rw [Fits, ← annexBToAvcc_length] at h
          set head := (if isKeyframe then kKeyframeType else kInterframeType) <<< 4 ||| kAvcCodecId
          have hlen : ([head, kAvcNalu] ++ writeU24 0 ++ annexBToAvcc data).length < 2 ^ 24 := by
            simp only [List.length_append, List.length_cons, List.length_nil, writeU24]
            omega
          have htime : (timestampMs % 4294967296).toNat < 2 ^ 32 := by omega
          refine ⟨_, buildFlvTag_eq hlen, hlen, htime, rfl, ?_, annexBToAvcc data, ?_,
            splitLengths_annexBToAvcc (by omega)⟩
          · exact Int.toNat_of_nonneg (Int.emod_nonneg _ (by decide))
          · rw [readVideo_body]
            cases isKeyframe <;> rfl

/-- What is read as it was asked for is no longer than its fields can say. -/
theorem fits_of_says (h : call.Says tag) (hbody : tag.body.length < 2 ^ 24) : call.Fits := by
  cases call with
  | sequenceHeader sps pps =>
      obtain ⟨-, -, record, -, hrecord⟩ := h
      obtain ⟨hsps, hpps⟩ := DecoderRecord.length_lt_of_readAvc hrecord
      exact ⟨hsps sps List.mem_cons_self, hpps pps List.mem_cons_self⟩
  | video data timestampMs isKeyframe =>
      obtain ⟨-, -, payload, hvideo, hpayload⟩ := h
      have hlen : tag.body.length = 5 + payload.length := Flv.length_of_readVideo hvideo
      rw [Fits, Bmff.length_of_splitLengths hpayload, ← hlen]
      exact hbody

end TagCall

/-! ### The tags of a file -/

theorem parseTags_flatMap {calls : List TagCall} {tags : List Flv.Tag}
    (h : List.Forall₂ (fun call tag => call.bytes = tag.bytes ∧ tag.body.length < 2 ^ 24 ∧
      tag.timestamp < 2 ^ 32) calls tags) :
    Flv.parseTags (calls.flatMap (·.bytes)) = some tags := by
  induction h with
  | nil => simp
  | cons hfirst _ ih =>
      obtain ⟨hbytes, hbody, htime⟩ := hfirst
      rw [List.flatMap_cons, hbytes, Flv.parseTags_cons hbody htime, ih, Option.map_some]

theorem parseFile_header (bs : List UInt8) :
    Flv.parseFile (makeFlvHeader ++ bs) = Flv.parseTags bs := by
  rw [Flv.parseFile, if_pos ⟨rfl, rfl, by simp [makeFlvHeader, writeU32], rfl⟩]
  rfl

/-- **The round trip** holds of tags the muxer makes exactly when they all fit. -/
theorem roundTrip_iff (calls : List TagCall) (hmade : ∀ call ∈ calls, call.bytes ≠ []) :
    RoundTrip calls ↔ ∀ call ∈ calls, call.Fits := by
  constructor
  · intro h call hcall
    obtain ⟨tag, hparse, -, hsays⟩ := h.each call hcall
    exact TagCall.fits_of_says hsays
      (Flv.length_body_of_parseTags hparse tag List.mem_cons_self)
  · intro h
    have htags : ∀ call ∈ calls, ∃ tag, (call.bytes = tag.bytes ∧ tag.body.length < 2 ^ 24 ∧
        tag.timestamp < 2 ^ 32) ∧ call.Says tag := by
      intro call hcall
      obtain ⟨tag, hbytes, hbody, htime, hsays⟩ :=
        TagCall.exists_tag (hmade call hcall) (h call hcall)
      exact ⟨tag, ⟨hbytes, hbody, htime⟩, hsays⟩
    constructor
    · intro call hcall
      obtain ⟨tag, ⟨hbytes, hbody, htime⟩, hsays⟩ := htags call hcall
      refine ⟨tag, ?_, by rw [hbytes, Flv.Tag.length_bytes], hsays⟩
      rw [hbytes, ← List.append_nil tag.bytes, Flv.parseTags_cons hbody htime, Flv.parseTags_nil,
        Option.map_some]
    · choose! tagOf hwritten hsays using htags
      refine ⟨calls.map tagOf, ?_, List.forall₂_map_right_iff.mpr (List.forall₂_same.mpr hsays)⟩
      rw [parseFile_header]
      exact parseTags_flatMap (List.forall₂_map_right_iff.mpr (List.forall₂_same.mpr hwritten))

/-- The sequence header of two small parameter sets. -/
theorem roundTrip_small : RoundTrip [.sequenceHeader [0x67, 0x42, 0x00, 0x1E] [0x68, 0xCE]] := by
  refine (roundTrip_iff _ ?_).mpr ?_
  · decide
  · intro call hcall
    obtain rfl := List.mem_singleton.mp hcall
    exact ⟨by decide, by decide⟩

/-- An SPS of 65536 bytes is written behind the length 0. -/
theorem roundTrip_refuted :
    TagCall.bytes (.sequenceHeader (List.replicate 65536 0x67) [0x68]) ≠ [] ∧
      ¬ RoundTrip [.sequenceHeader (List.replicate 65536 0x67) [0x68]] := by
  constructor
  · exact TagCall.sequenceHeader_made (by rw [List.length_replicate]; decide) (by decide)
  · intro h
    obtain ⟨tag, hparse, -, hsays⟩ := h.each _ List.mem_cons_self
    have hbody := Flv.length_body_of_parseTags hparse tag List.mem_cons_self
    obtain ⟨hsps, -⟩ := TagCall.fits_of_says hsays hbody
    rw [List.length_replicate] at hsps
    exact absurd hsps (by decide)

end FlvMuxer

end LoongNvr.Network
