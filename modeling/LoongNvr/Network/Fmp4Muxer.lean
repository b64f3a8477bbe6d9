import LoongNvr.Core.Types
import LoongNvr.Network.NalUnit
import LoongNvr.Support.Bmff

/-!
# Network — Fmp4Muxer

`Fmp4Muxer`: the init segment (ftyp and moov) of a stream from its parameter sets, and the media
segment (moof and mdat) of a frame.

* `parseAnnexB_eq`: the units it finds are those between the start codes.
* `makeBox_eq`: a box is its size in four bytes, its type and what is in it.
-/

namespace LoongNvr.Network
open Support AnnexB Bmff LoongNvr.Core

namespace Fmp4Muxer

def kTimescale : UInt32 := 90000

/-! ### Boxes -/

def makeBox (type : FourCc) (payload : List UInt8) : List UInt8 :=
  writeU32 (UInt32.ofNat (8 + payload.length)) ++ (type.bytes ++ payload)

def makeFullBox (type : FourCc) (version : UInt8) (flags : UInt32) (payload : List UInt8) :
    List UInt8 :=
  makeBox type (version :: (writeU24 flags ++ payload))

/-! ### NAL units -/

def h264NalType (header : UInt8) : UInt8 := header &&& 0x1F

def h265NalType (header : UInt8) : UInt8 := header >>> 1 &&& 0x3F

/-- The unit `ParseAnnexB` pushes where one from `nalStart` ends at `i`. -/
def closeUnit (data : List UInt8) (nalStart i : ℕ) : Option NalUnit :=
  if nalStart < i then some ⟨nalStart, i - nalStart, data.getD nalStart 0 &&& 0xFF⟩ else none

def parseAnnexB (data : List UInt8) : List NalUnit :=
  if data.length < 4 then [] else scanLoop (closeUnit data) data 0 0 false

/-- The first SPS and the first PPS of a buffer that has both. -/
def extractH264Params (data : List UInt8) : Option (List UInt8 × List UInt8) := do
  let units := parseAnnexB data
  let sps ← units.find? (h264NalType ·.type == 7)
  let pps ← units.find? (h264NalType ·.type == 8)
  return (sps.bytes data, pps.bytes data)

/-- The first VPS, SPS and PPS of a buffer that has all three. -/
def extractH265Params (data : List UInt8) : Option (List UInt8 × List UInt8 × List UInt8) := do
  let units := parseAnnexB data
  let vps ← units.find? (h265NalType ·.type == 32)
  let sps ← units.find? (h265NalType ·.type == 33)
  let pps ← units.find? (h265NalType ·.type == 34)
  return (vps.bytes data, sps.bytes data, pps.bytes data)

/-- The units that `AnnexBToMp4` leaves out: the parameter sets of the codec. -/
def isParameterSet : CodecType → UInt8 → Bool
  | .h264, header => h264NalType header == 7 || h264NalType header == 8
  | .h265, header =>
      h265NalType header == 32 || h265NalType header == 33 || h265NalType header == 34
  | .unknown, _ => false

def annexBToMp4 (data : List UInt8) (codec : CodecType) : List UInt8 :=
  lengthPrefixed (fun unit => isParameterSet codec unit.type) data (parseAnnexB data)

/-! ### The init segment -/

def makeFtyp : List UInt8 :=
  let isom : FourCc := ⟨'i', 's', 'o', 'm'⟩
  let iso5 : FourCc := ⟨'i', 's', 'o', '5'⟩
  let iso6 : FourCc := ⟨'i', 's', 'o', '6'⟩
  let mp41 : FourCc := ⟨'m', 'p', '4', '1'⟩
  makeBox ⟨'f', 't', 'y', 'p'⟩
    (isom.bytes ++ writeU32 0x200 ++ isom.bytes ++ iso5.bytes ++ iso6.bytes ++ mp41.bytes)

/-- `n` zero bytes -/
def zeros (n : ℕ) : List UInt8 := List.replicate n 0

/-- The 16.16 identity matrix of `mvhd` and `tkhd`. -/
def identityMatrix : List UInt8 :=
  writeU32 0x00010000 ++ writeU32 0 ++ writeU32 0 ++
    writeU32 0 ++ writeU32 0x00010000 ++ writeU32 0 ++
    writeU32 0 ++ writeU32 0 ++ writeU32 0x40000000

def makeMvhd : List UInt8 :=
  makeFullBox ⟨'m', 'v', 'h', 'd'⟩ 0 0
    (writeU32 0 ++ writeU32 0 ++ writeU32 kTimescale ++ writeU32 0 ++
      writeU32 0x00010000 ++ writeU16 0x0100 ++ zeros 10 ++ identityMatrix ++
      zeros 24 ++ writeU32 2)

def makeTkhd (width height : UInt16) : List UInt8 :=
  makeFullBox ⟨'t', 'k', 'h', 'd'⟩ 0 3
    (writeU32 0 ++ writeU32 0 ++ writeU32 1 ++ writeU32 0 ++ writeU32 0 ++
      writeU32 0 ++ writeU32 0 ++ writeU16 0 ++ writeU16 0 ++ writeU16 0 ++ writeU16 0 ++
      identityMatrix ++ writeU32 (width.toUInt32 <<< 16) ++ writeU32 (height.toUInt32 <<< 16))

def makeMdhd : List UInt8 :=
  makeFullBox ⟨'m', 'd', 'h', 'd'⟩ 0 0
    (writeU32 0 ++ writeU32 0 ++ writeU32 kTimescale ++ writeU32 0 ++ writeU16 0x55C4 ++ writeU16 0)

/-- The handler's name is "VideoHandler" and its terminating zero. -/
def makeHdlr : List UInt8 :=
  let vide : FourCc := ⟨'v', 'i', 'd', 'e'⟩
  makeFullBox ⟨'h', 'd', 'l', 'r'⟩ 0 0
    (writeU32 0 ++ vide.bytes ++ writeU32 0 ++ writeU32 0 ++ writeU32 0 ++
      [0x56, 0x69, 0x64, 0x65, 0x6F, 0x48, 0x61, 0x6E, 0x64, 0x6C, 0x65, 0x72, 0x00])

def makeVmhd : List UInt8 :=
  makeFullBox ⟨'v', 'm', 'h', 'd'⟩ 0 1 (writeU16 0 ++ writeU16 0 ++ writeU16 0 ++ writeU16 0)

/-- One self-contained data reference. -/
def makeDinf : List UInt8 :=
  let urlBox := makeFullBox ⟨'u', 'r', 'l', ' '⟩ 0 1 []
  makeBox ⟨'d', 'i', 'n', 'f'⟩ (makeFullBox ⟨'d', 'r', 'e', 'f'⟩ 0 0 (writeU32 1 ++ urlBox))

/-- The sample tables of a fragmented file are empty. -/
def makeStbl (stsd : List UInt8) : List UInt8 :=
  let emptyEntries := writeU32 0
  makeBox ⟨'s', 't', 'b', 'l'⟩
    (stsd ++ makeFullBox ⟨'s', 't', 't', 's'⟩ 0 0 emptyEntries ++
      makeFullBox ⟨'s', 't', 's', 'c'⟩ 0 0 emptyEntries ++
      makeFullBox ⟨'s', 't', 's', 'z'⟩ 0 0 (writeU32 0 ++ writeU32 0) ++
      makeFullBox ⟨'s', 't', 'c', 'o'⟩ 0 0 emptyEntries)

def makeMinf (stsd : List UInt8) : List UInt8 :=
  makeBox ⟨'m', 'i', 'n', 'f'⟩ (makeVmhd ++ makeDinf ++ makeStbl stsd)

def makeMdia (stsd : List UInt8) : List UInt8 :=
  makeBox ⟨'m', 'd', 'i', 'a'⟩ (makeMdhd ++ makeHdlr ++ makeMinf stsd)

def makeTrak (width height : UInt16) (stsd : List UInt8) : List UInt8 :=
  makeBox ⟨'t', 'r', 'a', 'k'⟩ (makeTkhd width height ++ makeMdia stsd)

/-- Track 1, its first sample description, and no defaults. -/
def makeMvex : List UInt8 :=
  makeBox ⟨'m', 'v', 'e', 'x'⟩
    (makeFullBox ⟨'t', 'r', 'e', 'x'⟩ 0 0
      (writeU32 1 ++ writeU32 1 ++ writeU32 0 ++ writeU32 0 ++ writeU32 0))

def makeMoov (width height : UInt16) (stsd : List UInt8) : List UInt8 :=
  makeBox ⟨'m', 'o', 'o', 'v'⟩ (makeMvhd ++ makeTrak width height stsd ++ makeMvex)

/-- The AVCDecoderConfigurationRecord of one SPS and one PPS. -/
def makeAvcC (sps pps : List UInt8) : List UInt8 :=
  makeBox ⟨'a', 'v', 'c', 'C'⟩
    ([1, sps.getD 1 0, sps.getD 2 0, sps.getD 3 0, 0xFF, 0xE1] ++
      writeU16 (UInt16.ofNat sps.length) ++ sps ++
      [1] ++ writeU16 (UInt16.ofNat pps.length) ++ pps)

/-- A sample entry of type `type` that ends with the codec's configuration box, in its `stsd`. -/
def makeStsd (type : FourCc) (width height : UInt16) (config : List UInt8) : List UInt8 :=
  let entry := makeBox type
    (zeros 6 ++ writeU16 1 ++ zeros 16 ++ writeU16 width ++ writeU16 height ++
      writeU32 0x00480000 ++ writeU32 0x00480000 ++ writeU32 0 ++ writeU16 1 ++ zeros 32 ++
      writeU16 0x0018 ++ writeU16 0xFFFF ++ config)
  makeFullBox ⟨'s', 't', 's', 'd'⟩ 0 0 (writeU32 1 ++ entry)

def makeAvc1Stsd (sps pps : List UInt8) (width height : UInt16) : List UInt8 :=
  makeStsd ⟨'a', 'v', 'c', '1'⟩ width height (makeAvcC sps pps)

/-- The profile, tier and level of an SPS, as `MakeHvcC` reads and writes them: from the bytes
after the NAL header, where the SPS has more than 15 bytes, else zeros. -/
def profileTierLevel (sps : List UInt8) : List UInt8 :=
  if sps.length > 15 then
    let ptlByte := sps.getD 2 0
    let generalProfileSpace := ptlByte >>> 6 &&& 0x03
    let generalTierFlag := ptlByte >>> 5 &&& 0x01
    let generalProfileIdc := ptlByte &&& 0x1F
    -- the compatibility and constraint flags are put in words and written back byte by byte
    [generalProfileSpace <<< 6 ||| generalTierFlag <<< 5 ||| generalProfileIdc] ++
      (sps.drop 3).take 4 ++ (sps.drop 7).take 6 ++ [sps.getD 13 0]
  else zeros 12

/-- An array of one parameter set in the HEVCDecoderConfigurationRecord. -/
def hvcCArray (nalUnitType : UInt8) (nal : List UInt8) : List UInt8 :=
  [nalUnitType] ++ writeU16 1 ++ writeU16 (UInt16.ofNat nal.length) ++ nal

/-- The HEVCDecoderConfigurationRecord of one VPS, one SPS and one PPS. -/
def makeHvcC (vps sps pps : List UInt8) : List UInt8 :=
  makeBox ⟨'h', 'v', 'c', 'C'⟩
    ([1] ++ profileTierLevel sps ++ writeU16 0xF000 ++ [0xFC, 0xFC, 0xF8, 0xF8] ++ writeU16 0 ++
      [0x0F, 3] ++ hvcCArray 0x20 vps ++ hvcCArray 0x21 sps ++ hvcCArray 0x22 pps)

def makeHev1Stsd (vps sps pps : List UInt8) (width height : UInt16) : List UInt8 :=
  makeStsd ⟨'h', 'e', 'v', '1'⟩ width height (makeHvcC vps sps pps)

/-- Empty where the parameter sets are too short. -/
def makeH264InitSegment (sps pps : List UInt8) (width height : UInt16) : List UInt8 :=
  if sps.length < 4 ∨ pps = [] then []
  else makeFtyp ++ makeMoov width height (makeAvc1Stsd sps pps width height)

/-- Empty where a parameter set is missing. -/
def makeH265InitSegment (vps sps pps : List UInt8) (width height : UInt16) : List UInt8 :=
  if vps = [] ∨ sps = [] ∨ pps = [] then []
  else makeFtyp ++ makeMoov width height (makeHev1Stsd vps sps pps width height)

/-! ### The media segment -/

def makeMfhd (sequenceNumber : UInt32) : List UInt8 :=
  makeFullBox ⟨'m', 'f', 'h', 'd'⟩ 0 0 (writeU32 sequenceNumber)

/-- Track 1; the flag is default-base-is-moof. -/
def makeTfhd : List UInt8 := makeFullBox ⟨'t', 'f', 'h', 'd'⟩ 0 0x020000 (writeU32 1)

/-- Version 1: a 64-bit decode time. -/
def makeTfdt (decodeTime : UInt64) : List UInt8 :=
  makeFullBox ⟨'t', 'f', 'd', 't'⟩ 1 0 (writeU64 decodeTime)

/-- data-offset, sample-duration, sample-size and sample-flags present -/
def trunFlags : UInt32 := 0x000001 ||| 0x000100 ||| 0x000200 ||| 0x000400

/-- One sample, with a data offset. -/
def makeTrun (dataOffset duration sampleSize : UInt32) (isKeyframe : Bool) : List UInt8 :=
  let sampleFlags : UInt32 := if isKeyframe then 0x02000000 else 0x01010000
  makeFullBox ⟨'t', 'r', 'u', 'n'⟩ 0 trunFlags
    (writeU32 1 ++ writeU32 dataOffset ++ writeU32 duration ++ writeU32 sampleSize ++
      writeU32 sampleFlags)

/-- `buf[pos] = …`, four times: the bytes of `val` in place of the ones at `pos`. -/
def patchU32 (buf : List UInt8) (pos : ℕ) (val : UInt32) : List UInt8 :=
  (((buf.set pos (val >>> 24 &&& 0xFF).toUInt8).set (pos + 1) (val >>> 16 &&& 0xFF).toUInt8).set
    (pos + 2) (val >>> 8 &&& 0xFF).toUInt8).set (pos + 3) (val &&& 0xFF).toUInt8

/-- The data offset is a placeholder until the size of `moof` is known, and is then written over
it at a position counted from the sizes of the boxes before it. -/
def makeMoof (sequenceNumber : UInt32) (decodeTime : UInt64) (duration sampleSize : UInt32)
    (isKeyframe : Bool) : List UInt8 :=
  let mfhd := makeMfhd sequenceNumber
  let tfhd := makeTfhd
  let tfdt := makeTfdt decodeTime
  let trun := makeTrun 0 duration sampleSize isKeyframe
  let traf := makeBox ⟨'t', 'r', 'a', 'f'⟩ (tfhd ++ tfdt ++ trun)
  let moof := makeBox ⟨'m', 'o', 'o', 'f'⟩ (mfhd ++ traf)
  let dataOffset := UInt32.ofNat moof.length + 8
  let offsetInMoof := 8 + mfhd.length + 8 + tfhd.length + tfdt.length + 8 + 4 + 4
  if offsetInMoof + 4 ≤ moof.length then patchU32 moof offsetInMoof dataOffset else moof

/-- Empty where the frame has nothing but parameter sets. -/
def makeMediaSegment (data : List UInt8) (decodeTime : UInt64) (duration sequenceNumber : UInt32)
    (isKeyframe : Bool) (codec : CodecType) : List UInt8 :=
  let mp4Data := annexBToMp4 data codec
  if mp4Data = [] then []
  else
    let sampleSize := UInt32.ofNat mp4Data.length
    let moof := makeMoof sequenceNumber decodeTime duration sampleSize isKeyframe
    let mdat := writeU32 (UInt32.ofNat (8 + mp4Data.length)) ++
      (FourCc.bytes ⟨'m', 'd', 'a', 't'⟩ ++ mp4Data)
    moof ++ mdat

/-! ### The units of a buffer, and boxes as a reader sees them -/

def unitOf (data : List UInt8) (range : ℕ × ℕ) : NalUnit :=
  ⟨range.1, range.2, data.getD range.1 0 &&& 0xFF⟩

theorem parseAnnexB_eq (data : List UInt8) :
    parseAnnexB data = (nalRanges data).map (unitOf data) := by
  by_cases e : data.length < 4
  · rw [parseAnnexB, if_pos e, nalRanges_of_length_lt e, List.map_nil]
  · have hclose : ∀ start i, closeUnit data start i =
        if start < i then some (unitOf data (start, i - start)) else none := fun _ _ => rfl
    rw [parseAnnexB, if_neg e, scanLoop_eq hclose]

theorem makeBox_eq {type : FourCc} {payload : List UInt8} (h : 8 + payload.length < 2 ^ 32) :
    makeBox type payload = be 4 (8 + payload.length) ++ (type.bytes ++ payload) := by
  rw [makeBox, writeU32_eq, UInt32.toNat_ofNat', Nat.mod_eq_of_lt h]

@[simp] theorem length_makeBox (type : FourCc) (payload : List UInt8) :
    (makeBox type payload).length = 8 + payload.length := by
  simp only [makeBox, writeU32_eq, List.length_append, length_be, FourCc.length_bytes]
  omega

@[simp] theorem length_makeFullBox (type : FourCc) (version : UInt8) (flags : UInt32)
    (payload : List UInt8) :
    (makeFullBox type version flags payload).length = 12 + payload.length := by
  simp only [makeFullBox, length_makeBox, writeU24_eq, List.length_cons, List.length_append,
    length_be]
  omega

end Fmp4Muxer

end LoongNvr.Network
