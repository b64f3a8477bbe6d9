import LoongNvr.Core.Types
import LoongNvr.Support.AnnexB
import LoongNvr.Support.Buffer

/-!
# Network — RtpPacketizer

`RtpPacketizer`: the NAL units of an Annex B buffer as RTP packets, each in an interleaved frame.
A NAL unit that fits goes in one packet, a longer one in FU-A fragments.

* `findLoop_append`: its scan for start codes cuts like `AnnexB.cut`, but for empty units at the
  end.
* `findNalUnits_serialise`: it finds the units of a stream where they lie.
* `filter_findNalUnits`, `findNalUnits_of_none`: in a buffer with a start code it finds what stands
  between the start codes; in one without it takes the last bytes for a unit.
-/

namespace LoongNvr.Network
open Support AnnexB LoongNvr.Core

structure RtpPacketizer where
  codec : CodecType
  ssrc : UInt32 := 0x12345678
  seq : UInt16 := 0
  channel : UInt8 := 0
  deriving DecidableEq, Repr

namespace RtpPacketizer

def kMaxRtpPayload : ℕ := 1400
def kRtpVersion : UInt8 := 2

/-! ### Finding the units -/

/-- The loop that finds the first start code: where it leaves `i`. -/
def findFirst (data : List UInt8) (i : ℕ) : ℕ :=
  if i + 3 < data.length then
    if code3At data i then i + 3
    else if code4At data i then i + 4
    else findFirst data (i + 1)
  else i
  termination_by data.length - i

/-- The loop over the rest, and the last unit. -/
def findLoop (data : List UInt8) (i nalStart : ℕ) : List (ℕ × ℕ) :=
  if i + 3 ≤ data.length then
    if code3At data i then (nalStart, i - nalStart) :: findLoop data (i + 3) (i + 3)
    else if i + 3 < data.length ∧ code4At data i then
      (nalStart, i - nalStart) :: findLoop data (i + 4) (i + 4)
    else findLoop data (i + 1) nalStart
  else if nalStart < data.length then [(nalStart, data.length - nalStart)]
  else []
  termination_by data.length - i

/-- The units as ranges, first position and size. -/
def findNalUnits (data : List UInt8) : List (ℕ × ℕ) :=
  let i := findFirst data 0
  if data.length ≤ i then [] else findLoop data i i

/-! ### Packets -/

/-- One interleaved frame: `$`, the channel, the size of the packet, and the packet. -/
def emitPacket (self : RtpPacketizer) (payload : List UInt8) (timestamp : UInt32) (marker : Bool) :
    RtpPacketizer × List UInt8 :=
  let rtpHeader := [kRtpVersion <<< 6, if marker then 96 ||| 0x80 else 96] ++ writeU16 self.seq ++
    writeU32 timestamp ++ writeU32 self.ssrc
  let rtpSize := 12 + payload.length
  ({ self with seq := self.seq + 1 },
    [0x24, self.channel] ++ writeU16 (UInt16.ofNat rtpSize) ++ rtpHeader ++ payload)

/-- The fragments of a NAL unit, from its second byte on. -/
def emitFragments (self : RtpPacketizer) (nri nalType : UInt8) (timestamp : UInt32) (marker : Bool)
    (frag : List UInt8) (first : Bool) : RtpPacketizer × List (List UInt8) :=
  if frag = [] then (self, [])
  else
    let chunk := min frag.length (kMaxRtpPayload - 2)
    let last := chunk == frag.length
    let fuIndicator := nri ||| 28
    let fuHeader := nalType ||| (if first then 0x80 else 0) ||| (if last then 0x40 else 0)
    let (self, frame) := self.emitPacket ([fuIndicator, fuHeader] ++ frag.take chunk) timestamp
      (last && marker)
    let (self, frames) := self.emitFragments nri nalType timestamp marker (frag.drop chunk) false
    (self, frame :: frames)
  termination_by frag.length
  decreasing_by
    have := List.length_pos_iff.mpr ‹_›
    simp only [List.length_drop, kMaxRtpPayload]
    omega

def packetizeH264Nal (self : RtpPacketizer) (nal : List UInt8) (timestamp : UInt32)
    (marker : Bool) : RtpPacketizer × List (List UInt8) :=
  match nal with
  | [] => (self, [])
  | nalHeader :: rest =>
      if nal.length ≤ kMaxRtpPayload then
        let (self, frame) := self.emitPacket nal timestamp marker
        (self, [frame])
      else self.emitFragments (nalHeader &&& 0x60) (nalHeader &&& 0x1F) timestamp marker rest true

/-- The marker goes with the last unit. -/
def packetizeUnits (self : RtpPacketizer) (data : List UInt8) (timestamp : UInt32) :
    List (ℕ × ℕ) → RtpPacketizer × List (List UInt8)
  | [] => (self, [])
  | nal :: nals =>
      let (self, frames) := self.packetizeH264Nal (bytesAt data nal) timestamp nals.isEmpty
      let (self, more) := self.packetizeUnits data timestamp nals
      (self, frames ++ more)

/-- Microseconds in ticks of 90 kHz, the low 32 bits; the product is one of 64 bits. -/
def toTimestamp (pts : ℤ) : UInt32 :=
  UInt32.ofNat ((toInt64 (pts * 90000)).tdiv 1000000 % 4294967296).toNat

/-- The frames `Packetize` calls back with. -/
def packetize (self : RtpPacketizer) (data : List UInt8) (pts : ℤ) :
    RtpPacketizer × List (List UInt8) :=
  self.packetizeUnits data (toTimestamp pts) (findNalUnits data)

/-! ### What the scan finds -/

/-- The scan cuts at start codes; it leaves out a last unit with nothing in it. -/
theorem findLoop_append (data : List UInt8) (i start : ℕ) :
    ∃ tail, cut data i start = findLoop data i start ++ tail ∧ ∀ range ∈ tail, range.2 = 0 := by
  have hend : ∀ start, ∃ tail, [(start, data.length - start)] =
      (if start < data.length then [(start, data.length - start)] else []) ++ tail ∧
        ∀ range ∈ tail, range.2 = 0 := by
    intro start
    by_cases e : start < data.length
    · exact ⟨[], by simp [e], by simp⟩
    · exact ⟨[(start, data.length - start)], by simp [e], by simp; omega⟩
  fun_induction cut data i start with
  | case1 i start hi h3 ih =>
      have := lt_of_code3At h3
      obtain ⟨tail, htail, hempty⟩ := ih
      refine ⟨tail, ?_, hempty⟩
      rw [findLoop, if_pos (by omega), if_pos h3, htail, List.cons_append]
  | case2 i start hi h3 h4 ih =>
      have := lt_of_code4At h4
      obtain ⟨tail, htail, hempty⟩ := ih
      refine ⟨tail, ?_, hempty⟩
      rw [findLoop, if_pos (by omega), if_neg h3, if_pos ⟨by omega, h4⟩, htail, List.cons_append]
  | case3 i start hi h3 h4 ih =>
      -- the loop of the source stops where fewer than three bytes are left
      by_cases e : i + 3 ≤ data.length
      · rw [findLoop, if_pos e, if_neg h3, if_neg (by simp [h4])]
        exact ih
      · rw [findLoop, if_neg (by omega)] at ih ⊢
        exact ih
  | case4 i start hi =>
      rw [findLoop, if_neg (by omega)]
      exact hend start

theorem filter_findLoop (data : List UInt8) (i start : ℕ) :
    (findLoop data i start).filter (·.2 ≠ 0) = (cut data i start).filter (·.2 ≠ 0) := by
  obtain ⟨tail, htail, hempty⟩ := findLoop_append data i start
  have hnone : tail.filter (·.2 ≠ 0) = [] := by
    rw [List.filter_eq_nil_iff]
    intro range hr
    simp [hempty range hr]
  rw [htail, List.filter_append, hnone, List.append_nil]

theorem findLoop_eq_cut {data : List UInt8} {i start : ℕ}
    (h : ∀ range ∈ cut data i start, range.2 ≠ 0) : findLoop data i start = cut data i start := by
  obtain ⟨tail, htail, hempty⟩ := findLoop_append data i start
  have hnil : tail = [] := by
    rw [List.eq_nil_iff_forall_not_mem]
    intro range hr
    exact h range (by rw [htail]; exact List.mem_append_right _ hr) (hempty range hr)
  rw [htail, hnil, List.append_nil]

/-- The first loop stops after the first start code, unless that code is the last thing in the
buffer and has three bytes. -/
theorem findFirst_of_firstUnit {data : List UInt8} {i p : ℕ} (h : firstUnit data i = some p) :
    findFirst data i = p ∨
      findFirst data i + 3 = data.length ∧ p = data.length ∧
        code3At data (findFirst data i) = true := by
  fun_induction firstUnit data i with
  | case1 i _ h3 =>
      have hlt := lt_of_code3At h3
      obtain rfl := Option.some.inj h
      by_cases e : i + 3 < data.length
      · exact .inl (by rw [findFirst, if_pos e, if_pos h3])
      · have hstop : findFirst data i = i := by rw [findFirst, if_neg e]
        rw [hstop]
        exact .inr ⟨by omega, by omega, h3⟩
  | case2 i _ h3 h4 =>
      have hlt := lt_of_code4At h4
      obtain rfl := Option.some.inj h
      exact .inl (by rw [findFirst, if_pos hlt, if_neg h3, if_pos h4])
  | case3 i _ h3 h4 ih =>
      obtain ⟨hlow, hhigh⟩ := firstUnit_bounds h
      rw [findFirst, if_pos (by omega), if_neg h3, if_neg h4]
      exact ih h
  | case4 => exact absurd h (by simp)

/-- Without a start code, the first loop stops inside the buffer. -/
theorem findFirst_lt {data : List UInt8} {i : ℕ} (h : firstUnit data i = none)
    (hi : i < data.length) : findFirst data i < data.length := by
  fun_induction firstUnit data i with
  | case1 | case2 => exact absurd h (by simp)
  | case3 i _ h3 h4 ih =>
      by_cases e : i + 3 < data.length
      · rw [findFirst, if_pos e, if_neg h3, if_neg h4]
        exact ih h (by omega)
      · rwa [findFirst, if_neg e]
  | case4 => omega

/-- In a buffer with a start code, what is found is what stands between the start codes. -/
theorem filter_findNalUnits {data : List UInt8} {p : ℕ} (h : firstUnit data 0 = some p) :
    (findNalUnits data).filter (·.2 ≠ 0) = nalRanges data := by
  have hbounds := firstUnit_bounds h
  have hranges : nalRanges data = (cut data p p).filter (·.2 ≠ 0) := by rw [nalRanges, h]
  rcases findFirst_of_firstUnit h with e | ⟨e, hp, h3⟩
  · by_cases hend : data.length ≤ p
    · have hp : data.length - p = 0 := by omega
      simp only [findNalUnits, e, if_pos hend, hranges, cut_end hend, hp]
      rfl
    · simp only [findNalUnits, e, if_neg hend, filter_findLoop, hranges]
  · -- a code of three bytes at the very end: nothing before it, nothing behind it
    have hcut : cut data (findFirst data 0) (findFirst data 0) =
        [(findFirst data 0, 0), (data.length, 0)] := by
      rw [cut_code3 h3, e, cut_end le_rfl, Nat.sub_self, Nat.sub_self]
    have hlast : data.length - data.length = 0 := Nat.sub_self _
    simp only [findNalUnits, if_neg (show ¬ data.length ≤ findFirst data 0 by omega),
      filter_findLoop, hcut, hranges, hp, cut_end le_rfl, hlast]
    rfl

/-- **In a stream of units, what is found is where they lie.** -/
theorem findNalUnits_serialise (us : List StreamUnit) :
    findNalUnits (serialise us) = offsets 0 us := by
  cases us with
  | nil => simp [findNalUnits, serialise, offsets]
  | cons u us =>
      have hfirst := firstUnit_startCode u.long [] (u.nal.bytes ++ serialise us)
      have hcut := cut_serialise u.nal (startCode u.long) us
      simp only [List.nil_append, List.length_nil, Nat.zero_add] at hfirst
      have hlen : (startCode u.long).length < (serialise (u :: us)).length := by
        have := u.nal.length_pos
        simp only [serialise, List.length_append]
        omega
      rw [← serialise] at hfirst hcut
      have hstop : findFirst (serialise (u :: us)) 0 = (startCode u.long).length := by
        rcases findFirst_of_firstUnit hfirst with e | ⟨-, e, -⟩
        · exact e
        · omega
      have hnonempty : ∀ range ∈ cut (serialise (u :: us)) (startCode u.long).length
          (startCode u.long).length, range.2 ≠ 0 := by
        rw [hcut]
        intro range hrange
        have hmem : range ∈ offsets 0 (u :: us) := by simpa [offsets] using hrange
        have := length_pos_of_mem_offsets hmem
        omega
      simp only [findNalUnits, hstop, if_neg (Nat.not_le.mpr hlen), findLoop_eq_cut hnonempty, hcut,
        offsets, Nat.zero_add]

/-- In a buffer without one, the bytes where the first loop stops are taken for a unit. -/
theorem findNalUnits_of_none {data : List UInt8} (h : firstUnit data 0 = none)
    (hne : data ≠ []) : (findNalUnits data).filter (·.2 ≠ 0) ≠ [] := by
  have hlt := findFirst_lt h (List.length_pos_iff.mpr hne)
  have hcut : cut data (findFirst data 0) (findFirst data 0) =
      [(findFirst data 0, data.length - findFirst data 0)] :=
    cut_of_no_code fun j _ => firstUnit_eq_none_iff.mp h j (Nat.zero_le _)
  have hsize : data.length - findFirst data 0 ≠ 0 := by omega
  simp only [findNalUnits, if_neg (Nat.not_le.mpr hlt), filter_findLoop, hcut]
  simp [hsize]

end RtpPacketizer

end LoongNvr.Network
