import LoongNvr.Support.Buffer
import LoongNvr.Support.TransportStream

/-!
# Network — TsMuxer

`TsMuxer::WriteAccessUnit`: a frame as a PES packet in transport stream packets.  A packet has one
of four shapes: filled, an adaptation field of no bytes, one of stuffing, and, first of a keyframe,
one with the clock reference.

* `length_writePsiTables`: two packets, whatever the counters.
-/

namespace LoongNvr.Network
open Support TransportStream

structure TsMuxer where
  patCc : UInt8 := 0
  pmtCc : UInt8 := 0
  videoCc : UInt8 := 0
  deriving DecidableEq, Repr

namespace TsMuxer

def kVideoPid : UInt16 := 0x0100
def kSyncByte : UInt8 := 0x47
def kStuffingByte : UInt8 := 0xFF
def kStreamIdVideo : UInt8 := 0xE0
def kMaxPayload : ℕ := 184

def reset : TsMuxer := {}

/-- `static_cast<uint64_t>` of an `int64_t` -/
def toU64 (x : ℤ) : UInt64 := UInt64.ofNat (x % 18446744073709551616).toNat

/-- 14 bytes, with the presentation time alone. -/
def buildPesHeader (pts90khz : ℤ) : List UInt8 :=
  let pts := toU64 pts90khz
  [0x00, 0x00, 0x01, kStreamIdVideo, 0x00, 0x00, 0x84, 0x80, 0x05,
    ((0x21 : UInt64) ||| (pts >>> 29 &&& 0x0E)).toUInt8, (pts >>> 22 &&& 0xFF).toUInt8,
    ((0x01 : UInt64) ||| (pts >>> 14 &&& 0xFE)).toUInt8, (pts >>> 7 &&& 0xFF).toUInt8,
    ((0x01 : UInt64) ||| (pts <<< 1 &&& 0xFE)).toUInt8]

/-- The clock reference, its extension 0. -/
def pcrBytes (pcr90khz : ℤ) : List UInt8 :=
  let pcrBase := toU64 pcr90khz
  let pcrExt : UInt64 := 0
  [(pcrBase >>> 25 &&& 0xFF).toUInt8, (pcrBase >>> 17 &&& 0xFF).toUInt8,
    (pcrBase >>> 9 &&& 0xFF).toUInt8, (pcrBase >>> 1 &&& 0xFF).toUInt8,
    ((pcrBase &&& 1) <<< 7 ||| (0x7E : UInt64) ||| (pcrExt >>> 8 &&& 0x01)).toUInt8,
    (pcrExt &&& 0xFF).toUInt8]

/-- Sync byte, unit start and PID. -/
def packetHead (pid : UInt16) (pusi : Bool) : List UInt8 :=
  [kSyncByte, ((if pusi then 0x40 else 0x00 : UInt16) ||| (pid >>> 8 &&& 0x1F)).toUInt8,
    (pid &&& 0xFF).toUInt8]

/-- The branch with an adaptation field: how much of the payload it takes, and the packet. -/
def adaptedPacket (head : List UInt8) (cc : UInt8) (pcr90khz : ℤ) (randomAccess : Bool)
    (payload : List UInt8) : ℕ × List UInt8 :=
  let adaptLen := if pcr90khz < 0 then 1 else 7
  let avail := kMaxPayload - 1 - adaptLen
  let copyLen := min payload.length avail
  let padding := avail - copyLen
  let totalAdapt := adaptLen + padding
  let flags := (if pcr90khz ≥ 0 then 0x10 else 0) ||| (if randomAccess then 0x40 else 0)
  (copyLen, head ++ [0x30 ||| (cc &&& 0x0F), UInt8.ofNat totalAdapt, flags] ++
    (if pcr90khz ≥ 0 then pcrBytes pcr90khz else []) ++ List.replicate padding kStuffingByte ++
    payload.take copyLen)

/-- The branch without, or with stuffing alone. -/
def plainPacket (head : List UInt8) (cc : UInt8) (payload : List UInt8) : ℕ × List UInt8 :=
  let copyLen := min payload.length kMaxPayload
  let stuff := kMaxPayload - copyLen
  let stuffing := if stuff = 1 then [0x00]
    else [UInt8.ofNat (stuff - 1), 0x00] ++ List.replicate (stuff - 2) kStuffingByte
  (copyLen,
    if copyLen < kMaxPayload then
      head ++ [0x30 ||| (cc &&& 0x0F)] ++ stuffing ++ payload.take copyLen
    else head ++ [0x10 ||| (cc &&& 0x0F)] ++ payload.take copyLen)

/-- Every packet takes some of the payload. -/
theorem copyLen_pos (head : List UInt8) (cc : UInt8) (pcr90khz : ℤ) (randomAccess : Bool)
    {payload : List UInt8} (h : payload ≠ []) :
    0 < (adaptedPacket head cc pcr90khz randomAccess payload).1 ∧
      0 < (plainPacket head cc payload).1 := by
  have hpos := List.length_pos_iff.mpr h
  simp only [adaptedPacket, plainPacket, kMaxPayload]
  constructor
  · split <;> omega
  · omega

/-- The loop of `PacketizePayload` from one packet on: the counter and the packets. -/
def packetizePayload (pid : UInt16) (payloadStart : Bool) (pcr90khz : ℤ) (randomAccess : Bool)
    (payload : List UInt8) (cc : UInt8) (firstPacket : Bool) : UInt8 × List UInt8 :=
  if payload = [] then (cc, [])
  else
    let head := packetHead pid (firstPacket && payloadStart)
    let needAdaptation := firstPacket && (decide (pcr90khz ≥ 0) || randomAccess)
    let packet := if needAdaptation then adaptedPacket head cc pcr90khz randomAccess payload
      else plainPacket head cc payload
    let rest := packetizePayload pid payloadStart pcr90khz randomAccess
      (payload.drop packet.1) ((cc + 1) &&& 0x0F) false
    (rest.1, packet.2 ++ rest.2)
  termination_by payload.length
  decreasing_by
    have hpos := List.length_pos_iff.mpr ‹payload ≠ []›
    have hcopy := copyLen_pos (packetHead pid (firstPacket && payloadStart)) cc pcr90khz
      randomAccess ‹_›
    simp only [List.length_drop]
    split <;> omega

/-- Microseconds in ticks of 90 kHz. -/
def toTicks (ptsUs : ℤ) : ℤ := (ptsUs * 90).tdiv 1000

def writeAccessUnit (self : TsMuxer) (data : List UInt8) (ptsUs : ℤ) (isKeyframe : Bool) :
    TsMuxer × List UInt8 :=
  if data = [] then (self, [])
  else
    let pts90khz := toTicks ptsUs
    let pesPacket := buildPesHeader pts90khz ++ data
    let pcr := if isKeyframe then pts90khz else -1
    let (cc, output) := packetizePayload kVideoPid true pcr isKeyframe pesPacket self.videoCc true
    ({ self with videoCc := cc }, output)

end TsMuxer

end LoongNvr.Network

/-! ### Program tables

`TsMuxer::WritePsiTables`: the program association table and the program map table, a packet each.
-/

namespace LoongNvr.Network
open Support

namespace TsMuxer

def kTsPacketSize : ℕ := 188
def kPmtPid : UInt16 := 0x1000
def kPcrPid : UInt16 := kVideoPid
def kProgramNumber : UInt16 := 1
def kTransportStreamId : UInt16 := 1
def kStreamTypeH264 : UInt8 := 0x1B

/-- One bit of the checksum. -/
def crcBit (crc : UInt32) : UInt32 :=
  if crc &&& 0x80000000 ≠ 0 then (crc <<< 1) ^^^ 0x04C11DB7 else crc <<< 1

def crc32Mpeg2 (data : List UInt8) : UInt32 :=
  data.foldl (fun crc byte => crcBit^[8] (crc ^^^ (byte.toUInt32 <<< (24 : UInt32)))) 0xFFFFFFFF

/-- The two bytes of a PID behind three reserved bits. -/
def reservedPid (pid : UInt16) : List UInt8 :=
  [((0xE0 : UInt16) ||| (pid >>> 8 &&& 0x1F)).toUInt8, (pid &&& 0xFF).toUInt8]

/-- A section behind its pointer field and before its checksum, in a packet of its own. -/
def sectionPacket (head : List UInt8) (cc : UInt8) (body : List UInt8) : List UInt8 :=
  let payload := [0x00] ++ body ++ writeU32 (crc32Mpeg2 body)
  head ++ [0x10 ||| (cc &&& 0x0F)] ++ payload ++
    List.replicate (kTsPacketSize - 4 - payload.length) kStuffingByte

def appendPat (self : TsMuxer) : TsMuxer × List UInt8 :=
  let body := [0x00, 0xB0, 0x0D] ++ writeU16 kTransportStreamId ++ [0xC1, 0x00, 0x00] ++
    writeU16 kProgramNumber ++ reservedPid kPmtPid
  ({ self with patCc := (self.patCc + 1) &&& 0x0F },
    sectionPacket [kSyncByte, 0x40, 0x00] self.patCc body)

def appendPmt (self : TsMuxer) : TsMuxer × List UInt8 :=
  let body := [0x02, 0xB0, 0x12] ++ writeU16 kProgramNumber ++ [0xC1, 0x00, 0x00] ++
    reservedPid kPcrPid ++ [0xF0, 0x00] ++ [kStreamTypeH264] ++ reservedPid kVideoPid ++
    [0xF0, 0x00]
  let head := [kSyncByte, ((0x40 : UInt16) ||| (kPmtPid >>> 8 &&& 0x1F)).toUInt8,
    (kPmtPid &&& 0xFF).toUInt8]
  ({ self with pmtCc := (self.pmtCc + 1) &&& 0x0F }, sectionPacket head self.pmtCc body)

def writePsiTables (self : TsMuxer) : TsMuxer × List UInt8 :=
  let (self, pat) := self.appendPat
  let (self, pmt) := self.appendPmt
  (self, pat ++ pmt)

theorem length_sectionPacket {head body : List UInt8} (cc : UInt8) (hhead : head.length = 3)
    (hbody : body.length ≤ 179) : (sectionPacket head cc body).length = kTsPacketSize := by
  simp only [sectionPacket, List.length_append, hhead, List.length_cons, List.length_nil,
    writeU32_eq, length_be, List.length_replicate, kTsPacketSize]
  omega

theorem length_writePsiTables (self : TsMuxer) :
    self.writePsiTables.2.length = 2 * kTsPacketSize := by
  simp only [writePsiTables, appendPat, appendPmt, List.length_append]
  rw [length_sectionPacket _ rfl (by decide), length_sectionPacket _ rfl (by decide)]
  rfl

/-- The tables at the start of every segment, with the checksums a reader computes. -/
example : ((writePsiTables {}).2.drop 17).take 4 = [0x2A, 0xB1, 0x04, 0xB2] ∧
    ((writePsiTables {}).2.drop 210).take 4 = [0x15, 0xBD, 0x4D, 0x56] := by decide +kernel

end TsMuxer

end LoongNvr.Network
