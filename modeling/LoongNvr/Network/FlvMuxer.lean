import LoongNvr.Network.NalUnit

/-!
# Network — FlvMuxer

`FlvMuxer`: the file header, the AVC sequence header tag and the video tags of an FLV stream, made
from Annex B buffers.

* `parseAnnexB_eq`: the units it finds are those between the start codes.
-/

namespace LoongNvr.Network
open Support AnnexB

namespace FlvMuxer

def kFlvTagVideo : UInt8 := 9
def kAvcCodecId : UInt8 := 7
def kKeyframeType : UInt8 := 1
def kInterframeType : UInt8 := 2
def kAvcSequenceHeader : UInt8 := 0
def kAvcNalu : UInt8 := 1
def kNalTypeSps : UInt8 := 7
def kNalTypePps : UInt8 := 8

/-- Version 1, video only, data offset 9, and the size of the tag before the first. -/
def makeFlvHeader : List UInt8 :=
  [0x46, 0x4C, 0x56, 0x01, 0x01] ++ writeU32 9 ++ writeU32 0

/-- The unit `ParseAnnexB` pushes where one from `nalStart` ends at `i`. -/
def closeUnit (data : List UInt8) (nalStart i : ℕ) : Option NalUnit :=
  let nalSize := i - nalStart
  if nalSize > 0 then some ⟨nalStart, nalSize, data.getD nalStart 0 &&& 0x1F⟩ else none

def parseAnnexB (data : List UInt8) : List NalUnit :=
  if data.length < 4 then [] else scanLoop (closeUnit data) data 0 0 false

/-- The first SPS and the first PPS of a buffer that has both. -/
def extractSpsPps (data : List UInt8) : Option (List UInt8 × List UInt8) := do
  let units := parseAnnexB data
  let sps ← units.find? (·.type == kNalTypeSps)
  let pps ← units.find? (·.type == kNalTypePps)
  return (sps.bytes data, pps.bytes data)

/-- The parameter sets go in the sequence header. -/
def annexBToAvcc (data : List UInt8) : List UInt8 :=
  lengthPrefixed (fun unit => unit.type == kNalTypeSps || unit.type == kNalTypePps) data
    (parseAnnexB data)

def buildFlvTag (tagType : UInt8) (data : List UInt8) (timestampMs : ℤ) : List UInt8 :=
  let dataSize := UInt32.ofNat data.length
  let ts := UInt32.ofNat (timestampMs % 4294967296).toNat
  [tagType] ++ writeU24 dataSize ++ writeU24 (ts &&& 0x00FFFFFF) ++
    [(ts >>> 24 &&& 0xFF).toUInt8] ++ writeU24 0 ++ data ++ writeU32 (11 + dataSize)

/-- The AVCDecoderConfigurationRecord of one SPS and one PPS; empty where they are too short. -/
def makeSequenceHeaderTag (sps pps : List UInt8) : List UInt8 :=
  if sps.length < 4 ∨ pps = [] then []
  else
    let body := [kKeyframeType <<< 4 ||| kAvcCodecId, kAvcSequenceHeader] ++ writeU24 0 ++
      [0x01, sps.getD 1 0, sps.getD 2 0, sps.getD 3 0, 0xFF, 0xE1] ++
      writeU16 (UInt16.ofNat sps.length) ++ sps ++
      [0x01] ++ writeU16 (UInt16.ofNat pps.length) ++ pps
    buildFlvTag kFlvTagVideo body 0

/-- Empty where the buffer has nothing but parameter sets. -/
def makeVideoTag (data : List UInt8) (timestampMs : ℤ) (isKeyframe : Bool) : List UInt8 :=
  let avccData := annexBToAvcc data
  if avccData = [] then []
  else
    let frameType := if isKeyframe then kKeyframeType else kInterframeType
    let body := [frameType <<< 4 ||| kAvcCodecId, kAvcNalu] ++ writeU24 0 ++ avccData
    buildFlvTag kFlvTagVideo body timestampMs

/-! ### The units of a buffer -/

def unitOf (data : List UInt8) (range : ℕ × ℕ) : NalUnit :=
  ⟨range.1, range.2, data.getD range.1 0 &&& 0x1F⟩

theorem parseAnnexB_eq (data : List UInt8) :
    parseAnnexB data = (nalRanges data).map (unitOf data) := by
  by_cases e : data.length < 4
  · rw [parseAnnexB, if_pos e, nalRanges_of_length_lt e, List.map_nil]
  · rw [parseAnnexB, if_neg e]
    exact scanLoop_eq (fun start i => by simp [closeUnit, unitOf]) data

end FlvMuxer

end LoongNvr.Network
