import LoongNvr.Network.TsMuxer

/-!
# Network — TsDemux

What a demultiplexer finds in the packets `TsMuxer` writes.

* `decodePts_buildPesHeader`, `decodePcrBase_pcrBytes`: the scattered bits of a time are its low 33.
* `Emits`: what a piece of output is as packets: whole, of the video PID, counted on.
* `emits_rest`, `emits_first`: the loop from a later packet on, and from the first.
* `writeAll_demux`: over any sequence of calls, demultiplexing undoes the muxer.
-/

namespace LoongNvr.Network
open Support TransportStream

namespace TsMuxer

/-! ### Times -/

theorem toU64_toNat {x : ℤ} (h0 : 0 ≤ x) (h : x < 2 ^ 64) : (toU64 x).toNat = x.toNat := by
  rw [toU64, Int.emod_eq_of_lt h0 (by omega), UInt64.toNat_ofNat', Nat.mod_eq_of_lt (by omega)]

/-- A byte of a word, as a number. -/
theorem byte_of_u64 (val k : UInt64) (hk : k.toNat < 64) :
    (val >>> k).toUInt8.toNat = val.toNat / 2 ^ k.toNat % 256 := by
  simp only [UInt64.toNat_toUInt8, UInt64.toNat_shiftRight, Nat.mod_eq_of_lt hk,
    Nat.shiftRight_eq_div_pow, Nat.reducePow]

/-- Masks and marker bits leave the bits between them. -/
theorem marked_bits (v : UInt8) :
    ((0x21 : UInt8) ||| (v &&& 0x0E)).toNat / 2 % 8 = v.toNat / 2 % 8 ∧
      ((0x01 : UInt8) ||| (v &&& 0xFE)).toNat / 2 = v.toNat / 2 ∧ v &&& 0xFF = v ∧
      ((v &&& 1) <<< 7 ||| (0x7E : UInt8)).toNat / 128 = v.toNat % 2 := by
  have hall : ∀ n : Fin 256, let v := UInt8.ofNat n
      ((0x21 : UInt8) ||| (v &&& 0x0E)).toNat / 2 % 8 = v.toNat / 2 % 8 ∧
        ((0x01 : UInt8) ||| (v &&& 0xFE)).toNat / 2 = v.toNat / 2 ∧ v &&& 0xFF = v ∧
        ((v &&& 1) <<< 7 ||| (0x7E : UInt8)).toNat / 128 = v.toNat % 2 := by decide +kernel
  have h := hall ⟨v.toNat, v.toNat_lt⟩
  rwa [UInt8.ofNat_toNat] at h

theorem mask_byte (x : UInt64) : (x &&& 0xFF).toUInt8 = x.toUInt8 := by
  rw [UInt64.toUInt8_and]
  exact (marked_bits x.toUInt8).2.2.1

/-- The low `a + b` bits of a number are the `b` bits above `a`, and the low `a`. -/
theorem mod_pow_add (n a b : ℕ) : n % 2 ^ (a + b) = n / 2 ^ a % 2 ^ b * 2 ^ a + n % 2 ^ a := by
  rw [pow_add, Nat.mod_mul, Nat.add_comm, Nat.mul_comm (2 ^ a)]

/-- **The PTS field holds the low 33 bits of the time.** -/
theorem decodePts_buildPesHeader {pts : ℤ} (h0 : 0 ≤ pts) (h : pts < 2 ^ 64) (data : List UInt8) :
    decodePts (buildPesHeader pts ++ data) = pts.toNat % 2 ^ 33 := by
  set p := toU64 pts with hp
  have hnat : p.toNat = pts.toNat := toU64_toNat h0 h
  have hmark : ∀ x c m : UInt64,
      (c ||| (x &&& m)).toUInt8 = c.toUInt8 ||| (x.toUInt8 &&& m.toUInt8) := by simp
  have b9 := (marked_bits (p >>> 29).toUInt8).1
  have b11 := (marked_bits (p >>> 14).toUInt8).2.1
  have b13 := (marked_bits (p <<< 1).toUInt8).2.1
  have hshift : (p <<< 1).toUInt8.toNat = 2 * p.toNat % 256 := by
    simp only [UInt64.toNat_toUInt8, UInt64.toNat_shiftLeft, UInt64.reduceToNat, Nat.reduceMod,
      Nat.shiftLeft_eq]
    omega
  have s29 := byte_of_u64 p 29 (by decide)
  have s22 := byte_of_u64 p 22 (by decide)
  have s14 := byte_of_u64 p 14 (by decide)
  have s7 := byte_of_u64 p 7 (by decide)
  have hbytes : decodePts (buildPesHeader pts ++ data) =
      ((0x21 : UInt8) ||| ((p >>> 29).toUInt8 &&& 0x0E)).toNat / 2 % 8 * 2 ^ 30 +
        (p >>> 22).toUInt8.toNat * 2 ^ 22 +
        ((0x01 : UInt8) ||| ((p >>> 14).toUInt8 &&& 0xFE)).toNat / 2 * 2 ^ 15 +
        (p >>> 7).toUInt8.toNat * 2 ^ 7 +
        ((0x01 : UInt8) ||| ((p <<< 1).toUInt8 &&& 0xFE)).toNat / 2 := by
    simp only [decodePts, buildPesHeader, ← hp, hmark, mask_byte, List.cons_append,
      List.getD_cons_succ, List.getD_cons_zero]
    rfl
  -- five groups of bits, put together again
  have h29 : pts.toNat / 2 ^ 29 % 256 / 2 % 8 = pts.toNat / 2 ^ 30 % 2 ^ 3 := by omega
  have h14 : pts.toNat / 2 ^ 14 % 256 / 2 = pts.toNat / 2 ^ 15 % 2 ^ 7 := by omega
  have hlow : 2 * pts.toNat % 256 / 2 = pts.toNat % 2 ^ 7 := by omega
  rw [hbytes, b9, b11, b13, hshift, s29, s22, s14, s7, hnat]
  simp only [UInt64.reduceToNat]
  rw [h29, h14, hlow, mod_pow_add _ 30 3, mod_pow_add _ 22 8, mod_pow_add _ 15 7,
    mod_pow_add _ 7 8]
  simp only [Nat.add_assoc, Nat.reducePow]

/-- **The clock reference holds the low 33 bits of the time.** -/
theorem decodePcrBase_pcrBytes {pcr : ℤ} (h0 : 0 ≤ pcr) (h : pcr < 2 ^ 64) (flags : UInt8)
    (hflags : flags.toNat / 16 % 2 = 1) (padding : List UInt8) :
    decodePcrBase (flags :: (pcrBytes pcr ++ padding)) = some (pcr.toNat % 2 ^ 33) := by
  set p := toU64 pcr with hp
  have hnat : p.toNat = pcr.toNat := toU64_toNat h0 h
  have b5 := (marked_bits p.toUInt8).2.2.2
  have s25 := byte_of_u64 p 25 (by decide)
  have s17 := byte_of_u64 p 17 (by decide)
  have s9 := byte_of_u64 p 9 (by decide)
  have s1 := byte_of_u64 p 1 (by decide)
  -- the lowest bit shares its byte with the reserved bits
  have hlast : ((p &&& 1) <<< 7 ||| (0x7E : UInt64) ||| ((0 : UInt64) >>> 8 &&& 0x01)).toUInt8 =
      (p.toUInt8 &&& 1) <<< 7 ||| (0x7E : UInt8) := by
    rw [UInt64.toUInt8_or, UInt64.toUInt8_or]
    have hshift : ((p &&& 1) <<< 7).toUInt8 = (p.toUInt8 &&& 1) <<< 7 := by
      apply UInt8.toNat_inj.mp
      simp [Nat.shiftLeft_eq]
    rw [hshift]
    exact UInt8.or_zero
  have hbytes : decodePcrBase (flags :: (pcrBytes pcr ++ padding)) =
      some ((p >>> 25).toUInt8.toNat * 2 ^ 25 + (p >>> 17).toUInt8.toNat * 2 ^ 17 +
        (p >>> 9).toUInt8.toNat * 2 ^ 9 + (p >>> 1).toUInt8.toNat * 2 +
        ((p.toUInt8 &&& 1) <<< 7 ||| (0x7E : UInt8)).toNat / 128) := by
    simp only [decodePcrBase, pcrBytes, ← hp, mask_byte, hlast, List.cons_append,
      List.getD_cons_succ, List.getD_cons_zero, hflags, if_true]
  have hlow : pcr.toNat % 2 ^ 8 % 2 = pcr.toNat % 2 ^ 1 := by omega
  rw [hbytes, b5, s25, s17, s9, s1, hnat]
  simp only [UInt64.reduceToNat, UInt64.toNat_toUInt8, hnat]
  rw [hlow, mod_pow_add _ 25 8, mod_pow_add _ 17 8, mod_pow_add _ 9 8, mod_pow_add _ 1 8]
  simp only [Nat.add_assoc, Nat.reducePow]

/-! ### One packet -/

/-- The control bits and the counter in the fourth byte of a packet. -/
theorem control_byte (cc : UInt8) :
    ((0x30 : UInt8) ||| (cc &&& 0x0F)) >>> 4 &&& 3 = 3 ∧
      ((0x10 : UInt8) ||| (cc &&& 0x0F)) >>> 4 &&& 3 = 1 ∧
      (((0x30 : UInt8) ||| (cc &&& 0x0F)) &&& 0x0F).toNat = cc.toNat % 16 ∧
      (((0x10 : UInt8) ||| (cc &&& 0x0F)) &&& 0x0F).toNat = cc.toNat % 16 ∧
      ((cc + 1) &&& 0x0F).toNat = (cc.toNat + 1) % 16 := by
  have hall : ∀ n : Fin 256, let cc := UInt8.ofNat n
      ((0x30 : UInt8) ||| (cc &&& 0x0F)) >>> 4 &&& 3 = 3 ∧
        ((0x10 : UInt8) ||| (cc &&& 0x0F)) >>> 4 &&& 3 = 1 ∧
        (((0x30 : UInt8) ||| (cc &&& 0x0F)) &&& 0x0F).toNat = cc.toNat % 16 ∧
        (((0x10 : UInt8) ||| (cc &&& 0x0F)) &&& 0x0F).toNat = cc.toNat % 16 ∧
        ((cc + 1) &&& 0x0F).toNat = (cc.toNat + 1) % 16 := by decide +kernel
  have h := hall ⟨cc.toNat, cc.toNat_lt⟩
  rwa [UInt8.ofNat_toNat] at h

/-- The head of a video packet is read back. -/
theorem packetHead_video (pusi : Bool) :
    ∃ b1 : UInt8, packetHead kVideoPid pusi = [0x47, b1, 0x00] ∧
      (b1 &&& 0x40 != 0) = pusi ∧ (b1 &&& 0x1F).toNat * 256 + (0x00 : UInt8).toNat = 256 := by
  cases pusi
  · exact ⟨0x01, rfl, rfl, rfl⟩
  · exact ⟨0x41, rfl, rfl, rfl⟩

/-- A packet with an adaptation field behind its length. -/
theorem parsePacket_adapted (pusi : Bool) (cc : UInt8) (adaptation payload : List UInt8)
    (h : adaptation.length < 256) :
    parsePacket (packetHead kVideoPid pusi ++ ([0x30 ||| (cc &&& 0x0F),
        UInt8.ofNat adaptation.length] ++ (adaptation ++ payload))) =
      some ⟨pusi, 256, cc.toNat % 16, adaptation, payload⟩ := by
  obtain ⟨b1, hhead, hpusi, hpid⟩ := packetHead_video pusi
  obtain ⟨hcontrol, -, hcc, -⟩ := control_byte cc
  have hlen : (UInt8.ofNat adaptation.length).toNat = adaptation.length := by
    rw [UInt8.toNat_ofNat', Nat.mod_eq_of_lt h]
  rw [hhead]
  simp only [List.cons_append, List.nil_append, parsePacket, hcontrol, hcc, hpusi, hpid, hlen,
    List.take_left, List.drop_left, List.length_append, Nat.le_add_right, if_true, ne_eq,
    not_true_eq_false, if_false]
  rfl

/-- A packet filled with payload. -/
theorem parsePacket_filled (pusi : Bool) (cc : UInt8) (payload : List UInt8) :
    parsePacket (packetHead kVideoPid pusi ++ (0x10 ||| (cc &&& 0x0F)) :: payload) =
      some ⟨pusi, 256, cc.toNat % 16, [], payload⟩ := by
  obtain ⟨b1, hhead, hpusi, hpid⟩ := packetHead_video pusi
  obtain ⟨-, hcontrol, -, hcc, -⟩ := control_byte cc
  rw [hhead]
  simp only [List.cons_append, List.nil_append, parsePacket, hcontrol, hcc, hpusi, hpid, if_true,
    ne_eq, not_true_eq_false, if_false]

/-- **The packet with the clock reference**, whatever there is of payload. -/
theorem adaptedPacket_spec (pusi : Bool) (cc : UInt8) {pcr : ℤ} (payload : List UInt8)
    (h0 : 0 ≤ pcr) (h : pcr < 2 ^ 64) :
    let packet := adaptedPacket (packetHead kVideoPid pusi) cc pcr true payload
    packet.2.length = packetSize ∧ ∃ adaptation, parsePacket packet.2 =
        some ⟨pusi, 256, cc.toNat % 16, adaptation, payload.take packet.1⟩ ∧
      decodePcrBase adaptation = some (pcr.toNat % 2 ^ 33) := by
  set copyLen := min payload.length 176 with hcopy
  set adaptation := (0x50 : UInt8) :: (pcrBytes pcr ++ List.replicate (176 - copyLen) kStuffingByte)
    with hadapt
  have hlen : adaptation.length = 7 + (176 - copyLen) := by
    simp only [hadapt, List.length_cons, List.length_append, List.length_replicate, pcrBytes,
      List.length_nil]
    omega
  have hpacket : adaptedPacket (packetHead kVideoPid pusi) cc pcr true payload =
      (copyLen, packetHead kVideoPid pusi ++ ([0x30 ||| (cc &&& 0x0F),
        UInt8.ofNat adaptation.length] ++ (adaptation ++ payload.take copyLen))) := by
    rw [hlen]
    simp only [adaptedPacket, if_neg (Int.not_lt.mpr h0), if_pos h0, ge_iff_le, if_true,
      kMaxPayload, Nat.reduceSub, ← hcopy, hadapt, List.append_assoc, List.cons_append,
      List.nil_append]
    rfl
  rw [hpacket]
  refine ⟨?_, adaptation, parsePacket_adapted pusi cc adaptation _ (by omega),
    decodePcrBase_pcrBytes h0 h 0x50 (by decide) _⟩
  simp only [List.length_append, packetHead, List.length_cons, List.length_nil, hlen,
    List.length_take, packetSize]
  omega

/-- **A packet without it**: filled, or stuffed up. -/
theorem plainPacket_spec (pusi : Bool) (cc : UInt8) {payload : List UInt8} (h : payload ≠ []) :
    let packet := plainPacket (packetHead kVideoPid pusi) cc payload
    packet.2.length = packetSize ∧ ∃ adaptation, parsePacket packet.2 =
        some ⟨pusi, 256, cc.toNat % 16, adaptation, payload.take packet.1⟩ ∧
      decodePcrBase adaptation = none := by
  have hpos := List.length_pos_iff.mpr h
  set copyLen := min payload.length 184 with hcopy
  by_cases efill : copyLen < 184
  · -- the stuffing is the length byte alone, or that, the flags and as much as is missing
    obtain ⟨adaptation, hlen, hstuff, hnone⟩ : ∃ adaptation : List UInt8,
        adaptation.length = 184 - copyLen - 1 ∧
        (if 184 - copyLen = 1 then [0x00]
          else [UInt8.ofNat (184 - copyLen - 1), 0x00] ++
            List.replicate (184 - copyLen - 2) kStuffingByte) =
          UInt8.ofNat adaptation.length :: adaptation ∧ decodePcrBase adaptation = none := by
      by_cases e1 : 184 - copyLen = 1
      · exact ⟨[], by simp [e1], by rw [if_pos e1]; rfl, rfl⟩
      · refine ⟨0x00 :: List.replicate (184 - copyLen - 2) kStuffingByte, ?_, ?_,
          by simp [decodePcrBase]⟩
        · simp only [List.length_cons, List.length_replicate]
          omega
        · rw [if_neg e1, List.length_cons, List.length_replicate,
            show 184 - copyLen - 2 + 1 = 184 - copyLen - 1 by omega]
          rfl
    have hpacket : plainPacket (packetHead kVideoPid pusi) cc payload =
        (copyLen, packetHead kVideoPid pusi ++ ([0x30 ||| (cc &&& 0x0F),
          UInt8.ofNat adaptation.length] ++ (adaptation ++ payload.take copyLen))) := by
      simp only [plainPacket, kMaxPayload, ← hcopy, if_pos efill, hstuff]
      simp only [List.append_assoc, List.cons_append, List.nil_append]
    rw [hpacket]
    refine ⟨?_, adaptation, parsePacket_adapted pusi cc adaptation _ (by omega), hnone⟩
    simp only [List.length_append, packetHead, List.length_cons, List.length_nil, hlen,
      List.length_take, packetSize]
    omega
  · have hpacket : plainPacket (packetHead kVideoPid pusi) cc payload =
        (copyLen, packetHead kVideoPid pusi ++ (0x10 ||| (cc &&& 0x0F)) ::
          payload.take copyLen) := by
      simp only [plainPacket, kMaxPayload, ← hcopy, if_neg efill, List.append_assoc,
        List.cons_append, List.nil_append]
    rw [hpacket]
    refine ⟨?_, [], parsePacket_filled pusi cc _, rfl⟩
    simp only [List.length_append, packetHead, List.length_cons, List.length_nil,
      List.length_take, packetSize]
    omega

/-! ### The loop -/

/-- What a piece of output is to a demultiplexer, from counter `cc` on: whole packets of the video
PID, counted on, and the counter left for what follows. -/
structure Emits (cc : UInt8) (out : UInt8 × List UInt8) (packets : List TsPacket) : Prop where
  read : ∀ rest, parseStream (out.2 ++ rest) = (parseStream rest).map (packets ++ ·)
  length : out.2.length = packetSize * packets.length
  pid : ∀ packet ∈ packets, packet.pid = 256
  counters : packets.map (·.continuityCounter) =
    (List.range packets.length).map fun i => (cc.toNat + i) % 16
  next : out.1.toNat % 16 = (cc.toNat + packets.length) % 16

theorem Emits.nil (cc : UInt8) : Emits cc (cc, []) [] :=
  ⟨fun rest => by simp, rfl, by simp, rfl, rfl⟩

/-- A packet, and what is emitted after it. -/
theorem Emits.cons {cc : UInt8} {bs : List UInt8} {packet : TsPacket} {out : UInt8 × List UInt8}
    {packets : List TsPacket} (hlen : bs.length = packetSize)
    (hparse : parsePacket bs = some packet) (hpid : packet.pid = 256)
    (hcc : packet.continuityCounter = cc.toNat % 16)
    (h : Emits ((cc + 1) &&& 0x0F) out packets) :
    Emits cc (out.1, bs ++ out.2) (packet :: packets) := by
  obtain ⟨-, -, -, -, hnext⟩ := control_byte cc
  refine ⟨fun rest => ?_, ?_, ?_, ?_, ?_⟩
  · rw [List.append_assoc, parseStream_packet hlen hparse, h.read, Option.map_map]
    rfl
  · rw [List.length_append, hlen, h.length, List.length_cons, Nat.mul_succ, Nat.add_comm]
  · intro p hp
    rcases List.mem_cons.mp hp with rfl | hp
    · exact hpid
    · exact h.pid p hp
  · rw [List.map_cons, h.counters, List.length_cons, List.range_succ_eq_map, List.map_cons,
      List.map_map, hcc]
    congr 1
    refine List.map_congr_left fun i _ => ?_
    simp only [hnext, Function.comp_apply]
    omega
  · rw [h.next, hnext, List.length_cons]
    omega

/-- One piece of output after another. -/
theorem Emits.append {cc cc' : UInt8} {bs bs' : List UInt8} {c : UInt8}
    {packets packets' : List TsPacket} (h : Emits cc (c, bs) packets)
    (h' : Emits c (cc', bs') packets') : Emits cc (cc', bs ++ bs') (packets ++ packets') := by
  have hc := h.next
  simp only at hc
  refine ⟨fun rest => ?_, ?_, ?_, ?_, ?_⟩
  · rw [List.append_assoc, h.read, h'.read, Option.map_map]
    simp only [List.append_assoc, Function.comp_def]
  · rw [List.length_append, h.length, h'.length, List.length_append, Nat.mul_add]
  · intro p hp
    rcases List.mem_append.mp hp with hp | hp
    · exact h.pid p hp
    · exact h'.pid p hp
  · rw [List.map_append, h.counters, h'.counters, List.length_append, List.range_add,
      List.map_append, List.map_map]
    congr 1
    refine List.map_congr_left fun i _ => ?_
    simp only [Function.comp_apply]
    omega
  · rw [h'.next, List.length_append]
    omega

/-- **The loop from a later packet on**: the rest of the payload, in packets that start nothing. -/
theorem emits_rest (payloadStart : Bool) (pcr : ℤ) (randomAccess : Bool) (payload : List UInt8)
    (cc : UInt8) :
    ∃ packets, Emits cc
        (packetizePayload kVideoPid payloadStart pcr randomAccess payload cc false) packets ∧
      packets.flatMap (·.payload) = payload ∧
      ∀ packet ∈ packets, packet.payloadUnitStart = false := by
  induction hn : payload.length using Nat.strong_induction_on generalizing payload cc with
  | _ n ih =>
      by_cases e : payload = []
      · rw [packetizePayload, if_pos e, e]
        exact ⟨[], .nil cc, rfl, by simp⟩
      have hpos := List.length_pos_iff.mpr e
      obtain ⟨hlen, adaptation, hparse, -⟩ := plainPacket_spec false cc e
      set packet := plainPacket (packetHead kVideoPid false) cc payload with hpacket
      have hcopy : 0 < packet.1 := (copyLen_pos _ cc pcr randomAccess e).2
      obtain ⟨packets, hemits, hall, hstart⟩ := ih (payload.drop packet.1).length
        (by rw [List.length_drop]; omega) (payload.drop packet.1) ((cc + 1) &&& 0x0F) rfl
      refine ⟨⟨false, 256, cc.toNat % 16, adaptation, payload.take packet.1⟩ :: packets, ?_, ?_, ?_⟩
      · rw [packetizePayload, if_neg e]
        simp only [Bool.false_and, Bool.false_eq_true, if_false, ← hpacket]
        exact .cons hlen hparse rfl rfl hemits
      · rw [List.flatMap_cons, hall, List.take_append_drop]
      · intro p hp
        rcases List.mem_cons.mp hp with rfl | hp
        · rfl
        · exact hstart p hp

/-- **The loop from the first packet**: it starts the unit, and has the clock reference of a
keyframe. -/
theorem emits_first {ticks : ℤ} (h0 : 0 ≤ ticks) (h : ticks < 2 ^ 64) (isKeyframe : Bool)
    {payload : List UInt8} (cc : UInt8) (hne : payload ≠ []) :
    ∃ first packets, Emits cc (packetizePayload kVideoPid true (if isKeyframe then ticks else -1)
        isKeyframe payload cc true) (first :: packets) ∧
      first.payload ++ packets.flatMap (·.payload) = payload ∧
      first.payloadUnitStart = true ∧ (∀ packet ∈ packets, packet.payloadUnitStart = false) ∧
      decodePcrBase first.adaptation =
        if isKeyframe then some (ticks.toNat % 2 ^ 33) else none := by
  set packet := if isKeyframe then
      adaptedPacket (packetHead kVideoPid true) cc ticks true payload
    else plainPacket (packetHead kVideoPid true) cc payload with hpacket
  obtain ⟨hlen, adaptation, hparse, hpcr⟩ : packet.2.length = packetSize ∧ ∃ adaptation,
      parsePacket packet.2 = some ⟨true, 256, cc.toNat % 16, adaptation, payload.take packet.1⟩ ∧
      decodePcrBase adaptation = if isKeyframe then some (ticks.toNat % 2 ^ 33) else none := by
    cases isKeyframe
    · exact plainPacket_spec true cc hne
    · exact adaptedPacket_spec true cc payload h0 h
  obtain ⟨packets, hemits, hall, hstart⟩ := emits_rest true (if isKeyframe then ticks else -1)
    isKeyframe (payload.drop packet.1) ((cc + 1) &&& 0x0F)
  refine ⟨⟨true, 256, cc.toNat % 16, adaptation, payload.take packet.1⟩, packets, ?_, ?_, rfl,
    hstart, hpcr⟩
  · -- with a keyframe the first packet carries the clock
    have hstep : packetizePayload kVideoPid true (if isKeyframe then ticks else -1) isKeyframe
        payload cc true =
        let rest := packetizePayload kVideoPid true (if isKeyframe then ticks else -1) isKeyframe
          (payload.drop packet.1) ((cc + 1) &&& 0x0F) false
        (rest.1, packet.2 ++ rest.2) := by
      rw [packetizePayload, if_neg hne, hpacket]
      cases isKeyframe
      · rfl
      · simp only [if_true, Bool.true_and, ge_iff_le, h0, decide_true, Bool.or_true]
    rw [hstep]
    exact .cons hlen hparse rfl rfl hemits
  · rw [hall, List.take_append_drop]

/-! ### Access units -/

/-- A frame `WriteAccessUnit` can be given: it has bytes, and a time from 0 to 2^55 microseconds. -/
structure AccessUnit where
  data : List UInt8
  data_ne_nil : data ≠ []
  ptsUs : ℤ
  pts_nonneg : 0 ≤ ptsUs
  pts_lt : ptsUs < 2 ^ 55
  isKeyframe : Bool

/-- The time in ticks of 90 kHz, rounded down, its low 33 bits. -/
def AccessUnit.ticks33 (unit : AccessUnit) : ℕ := (unit.ptsUs * 90 / 1000).toNat % 2 ^ 33

/-- The PES packet of a frame. -/
def AccessUnit.pes (unit : AccessUnit) : List UInt8 :=
  buildPesHeader (toTicks unit.ptsUs) ++ unit.data

/-- `WriteAccessUnit`, call after call: the output of all calls. -/
def writeAll (self : TsMuxer) : List AccessUnit → TsMuxer × List UInt8
  | [] => (self, [])
  | unit :: units =>
      let (self, output) := self.writeAccessUnit unit.data unit.ptsUs unit.isKeyframe
      let (self, more) := self.writeAll units
      (self, output ++ more)

theorem AccessUnit.toTicks_eq (unit : AccessUnit) :
    toTicks unit.ptsUs = unit.ptsUs * 90 / 1000 := by
  have := unit.pts_nonneg
  rw [toTicks, Int.tdiv_eq_ediv_of_nonneg (by omega)]

theorem AccessUnit.ticks_bounds (unit : AccessUnit) :
    0 ≤ toTicks unit.ptsUs ∧ toTicks unit.ptsUs < 2 ^ 64 := by
  have hnonneg := unit.pts_nonneg
  have hlt := unit.pts_lt
  rw [unit.toTicks_eq]
  omega

/-- **The PTS field of a frame decodes to its time.** -/
theorem AccessUnit.decodePts_pes (unit : AccessUnit) : decodePts unit.pes = unit.ticks33 := by
  rw [pes, decodePts_buildPesHeader unit.ticks_bounds.1 unit.ticks_bounds.2, ticks33,
    unit.toTicks_eq]

/-- One call: the packets of a frame. -/
theorem emits_unit (self : TsMuxer) (unit : AccessUnit) :
    ∃ first packets, Emits self.videoCc
        ((self.writeAccessUnit unit.data unit.ptsUs unit.isKeyframe).1.videoCc,
          (self.writeAccessUnit unit.data unit.ptsUs unit.isKeyframe).2) (first :: packets) ∧
      first.payload ++ packets.flatMap (·.payload) = unit.pes ∧
      first.payloadUnitStart = true ∧ (∀ packet ∈ packets, packet.payloadUnitStart = false) ∧
      decodePcrBase first.adaptation = if unit.isKeyframe then some unit.ticks33 else none := by
  obtain ⟨h0, h⟩ := unit.ticks_bounds
  have hne : unit.pes ≠ [] := by simp [AccessUnit.pes, buildPesHeader]
  have hfirst := emits_first h0 h unit.isKeyframe self.videoCc hne
  rw [unit.toTicks_eq] at hfirst
  simpa only [writeAccessUnit, if_neg unit.data_ne_nil, AccessUnit.pes, AccessUnit.ticks33,
    unit.toTicks_eq] using hfirst

/-- **Demultiplexing undoes the muxer.**  From any counter, over every sequence of calls: the
output is a whole number of packets, all of the video PID and counted on by one; the units in them
are the PES packets of the frames, a header of 14 bytes and the frame; the PTS of each is the
frame's time; and the packet that starts a keyframe, and no other that starts a unit, has a clock
reference, of the same time. -/
theorem writeAll_demux (self : TsMuxer) (units : List AccessUnit) :
    ∃ packets, parseStream (self.writeAll units).2 = some packets ∧
      (self.writeAll units).2.length = packetSize * packets.length ∧
      (∀ packet ∈ packets, packet.pid = 256) ∧
      packets.map (·.continuityCounter) =
        (List.range packets.length).map (fun i => (self.videoCc.toNat + i) % 16) ∧
      pesUnits packets = ([], units.map (·.pes)) ∧
      (∀ unit ∈ units, (buildPesHeader (toTicks unit.ptsUs)).length = 14) ∧
      (pesUnits packets).2.map decodePts = units.map (·.ticks33) ∧
      (packets.filter (·.payloadUnitStart)).map (fun packet => decodePcrBase packet.adaptation) =
        units.map fun unit => if unit.isKeyframe then some unit.ticks33 else none := by
  suffices hrun : ∃ packets, Emits self.videoCc
      ((self.writeAll units).1.videoCc, (self.writeAll units).2) packets ∧
      pesUnits packets = ([], units.map (·.pes)) ∧
      (packets.filter (·.payloadUnitStart)).map (fun packet => decodePcrBase packet.adaptation) =
        units.map fun unit => if unit.isKeyframe then some unit.ticks33 else none by
    obtain ⟨packets, hemits, hunits, hpcr⟩ := hrun
    have hread := hemits.read []
    simp only [List.append_nil, parseStream_nil, Option.map_some] at hread
    refine ⟨packets, hread, hemits.length, hemits.pid, hemits.counters, hunits, fun _ _ => rfl, ?_,
      hpcr⟩
    rw [hunits, List.map_map]
    exact List.map_congr_left fun unit _ => unit.decodePts_pes
  induction units generalizing self with
  | nil => exact ⟨[], .nil _, rfl, rfl⟩
  | cons unit units ih =>
      obtain ⟨first, packets, hemits, hpayload, hstart, hcont, hpcr⟩ := self.emits_unit unit
      obtain ⟨more, hmore, hunits, hpcrs⟩ :=
        ih (self.writeAccessUnit unit.data unit.ptsUs unit.isKeyframe).1
      refine ⟨first :: packets ++ more, hemits.append hmore, ?_, ?_⟩
      · rw [pesUnits_unit hstart hcont (by rw [hunits]), hpayload, hunits, List.map_cons]
      · have hnone : packets.filter (·.payloadUnitStart) = [] := by
          rw [List.filter_eq_nil_iff]
          intro p hp
          simp [hcont p hp]
        rw [List.filter_append, List.filter_cons_of_pos hstart, hnone, List.map_append, hpcrs,
          List.map_cons, hpcr]
        rfl

end TsMuxer

end LoongNvr.Network
