import Mathlib.Data.List.Basic
import Mathlib.Algebra.Order.Group.Nat

/-!
# Support — TransportStream

The reader's side of an MPEG transport stream: 188-byte packets, and the PES packets in them.

* `TsPacket`, `parsePacket`, `parseStream`: a byte string as packets.
* `pesUnits`: the payloads put together between the packets that start a unit.
* `decodePts`, `decodePcrBase`: the 33-bit times of a PES header and of an adaptation field.
* `parseStream_packet`: a packet written first is read first.
-/

namespace TransportStream

def packetSize : ℕ := 188

structure TsPacket where
  payloadUnitStart : Bool
  pid : ℕ
  continuityCounter : ℕ
  adaptation : List UInt8
  payload : List UInt8
  deriving DecidableEq, Repr

/-- The packet after its sync byte and the two bytes behind it: the adaptation field is there if
the control bits say so, behind its length, and the rest is payload.  A packet without payload is
not expected. -/
def parsePacket : List UInt8 → Option TsPacket
  | sync :: b1 :: b2 :: b3 :: rest =>
      let control := b3 >>> 4 &&& 3
      let packet := TsPacket.mk (b1 &&& 0x40 != 0) ((b1 &&& 0x1F).toNat * 256 + b2.toNat)
        (b3 &&& 0x0F).toNat
      if sync ≠ 0x47 then none
      else if control = 1 then some (packet [] rest)
      else if control = 3 then
        match rest with
        | [] => none
        | len :: rest =>
            if len.toNat ≤ rest.length then
              some (packet (rest.take len.toNat) (rest.drop len.toNat))
            else none
      else none
  | _ => none

/-- A byte string as a whole number of packets. -/
def parseStream (bs : List UInt8) : Option (List TsPacket) :=
  if bs = [] then some []
  else if packetSize ≤ bs.length then do
    let packet ← parsePacket (bs.take packetSize)
    let packets ← parseStream (bs.drop packetSize)
    return packet :: packets
  else none
  termination_by bs.length
  decreasing_by
    simp only [List.length_drop, packetSize] at *
    omega

/-- What comes before the first unit, and the units. -/
def pesUnits : List TsPacket → List UInt8 × List (List UInt8)
  | [] => ([], [])
  | packet :: packets =>
      let (lead, units) := pesUnits packets
      if packet.payloadUnitStart then ([], (packet.payload ++ lead) :: units)
      else (packet.payload ++ lead, units)

/-- The presentation time in a PES header, 33 bits in five bytes with marker bits between. -/
def decodePts (pes : List UInt8) : ℕ :=
  let byte := fun i => (pes.getD i 0).toNat
  byte 9 / 2 % 8 * 2 ^ 30 + byte 10 * 2 ^ 22 + byte 11 / 2 * 2 ^ 15 + byte 12 * 2 ^ 7 + byte 13 / 2

/-- The clock reference of an adaptation field that has one: the 33 bits of its base. -/
def decodePcrBase (adaptation : List UInt8) : Option ℕ :=
  let byte := fun i => (adaptation.getD i 0).toNat
  if byte 0 / 16 % 2 = 1 then
    some (byte 1 * 2 ^ 25 + byte 2 * 2 ^ 17 + byte 3 * 2 ^ 9 + byte 4 * 2 + byte 5 / 128)
  else none

@[simp] theorem parseStream_nil : parseStream [] = some [] := by rw [parseStream, if_pos rfl]

/-- **A packet is read back**, whatever follows it. -/
theorem parseStream_packet {bs rest : List UInt8} {packet : TsPacket}
    (hlen : bs.length = packetSize) (hparse : parsePacket bs = some packet) :
    parseStream (bs ++ rest) = (parseStream rest).map (packet :: ·) := by
  have hne : bs ++ rest ≠ [] := by
    refine List.ne_nil_of_length_pos ?_
    rw [List.length_append, hlen, packetSize]
    omega
  have hfits : packetSize ≤ (bs ++ rest).length := by
    rw [List.length_append]
    omega
  rw [parseStream, if_neg hne, if_pos hfits, ← hlen, List.take_left, List.drop_left, hparse]
  cases parseStream rest <;> rfl

/-- Packets that start no unit go on with the one before them. -/
theorem pesUnits_append {packets more : List TsPacket}
    (h : ∀ packet ∈ packets, packet.payloadUnitStart = false) :
    pesUnits (packets ++ more) =
      (packets.flatMap (·.payload) ++ (pesUnits more).1, (pesUnits more).2) := by
  induction packets with
  | nil => rfl
  | cons packet packets ih =>
      have htail := ih fun p hp => h p (List.mem_cons_of_mem _ hp)
      rw [List.cons_append, pesUnits, htail]
      simp [h packet (by simp)]

/-- A unit is its first packet and the ones up to the next that starts a unit. -/
theorem pesUnits_unit {packet : TsPacket} {packets more : List TsPacket}
    (hstart : packet.payloadUnitStart = true)
    (h : ∀ packet ∈ packets, packet.payloadUnitStart = false) (hmore : (pesUnits more).1 = []) :
    pesUnits (packet :: packets ++ more) =
      ([], (packet.payload ++ packets.flatMap (·.payload)) :: (pesUnits more).2) := by
  rw [List.cons_append, pesUnits, pesUnits_append h, hmore]
  simp [hstart]

end TransportStream
