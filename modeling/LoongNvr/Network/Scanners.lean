import LoongNvr.Network.Fmp4Muxer
import LoongNvr.Network.FlvMuxer
import LoongNvr.Network.RtpPacketizer

/-!
# Network — Scanners

A frame leaves the recorder over RTSP, WebSocket and FLV, and each of the three looks for the NAL
units itself.

* `flv_ranges_eq`: the FLV and the fMP4 muxer always find the same units.
* `ranges_serialise`: in a stream of NAL units both find the units.
* `scanners_agree_iff`: the packetizer finds them too exactly in a buffer that is empty or has a
  start code.  It does not ask whether its first loop found one.
-/

namespace LoongNvr.Network
open AnnexB

theorem fmp4_ranges_eq (data : List UInt8) :
    (Fmp4Muxer.parseAnnexB data).map (·.range) = nalRanges data := by
  rw [Fmp4Muxer.parseAnnexB_eq, List.map_map]
  exact List.map_id _

theorem flv_ranges_eq (data : List UInt8) :
    (FlvMuxer.parseAnnexB data).map (·.range) = nalRanges data := by
  rw [FlvMuxer.parseAnnexB_eq, List.map_map]
  exact List.map_id _

/-- **What a stream carries** both muxers find, each unit where it lies. -/
theorem ranges_serialise (us : List StreamUnit) :
    (Fmp4Muxer.parseAnnexB (serialise us)).map (·.range) = offsets 0 us ∧
      (FlvMuxer.parseAnnexB (serialise us)).map (·.range) = offsets 0 us := by
  rw [fmp4_ranges_eq, flv_ranges_eq, nalRanges_serialise]
  exact ⟨rfl, rfl⟩

/-- The non-empty units the three scanners find. -/
def ScannersAgree (data : List UInt8) : Prop :=
  (RtpPacketizer.findNalUnits data).filter (·.2 ≠ 0) =
      (Fmp4Muxer.parseAnnexB data).map (·.range) ∧
    (Fmp4Muxer.parseAnnexB data).map (·.range) = (FlvMuxer.parseAnnexB data).map (·.range)

/-- **The three scanners agree exactly on buffers that are empty or have a start code.** -/
theorem scanners_agree_iff (data : List UInt8) :
    ScannersAgree data ↔ data = [] ∨ [0, 0, 1] <:+: data := by
  rw [ScannersAgree, fmp4_ranges_eq, flv_ranges_eq, and_iff_left rfl]
  cases h : firstUnit data 0 with
  | some p =>
      have hcode : [0, 0, 1] <:+: data := by
        by_contra hnone
        rw [infix_iff_code3At, not_exists] at hnone
        have := firstUnit_eq_none_iff.mpr fun j (_ : 0 ≤ j) => Bool.eq_false_iff.mpr (hnone j)
        rw [h] at this
        exact absurd this (by simp)
      exact iff_of_true (RtpPacketizer.filter_findNalUnits h) (.inr hcode)
  | none =>
      have hranges : nalRanges data = [] := by rw [nalRanges, h]
      have hcode : ¬ [0, 0, 1] <:+: data := by
        rw [infix_iff_code3At]
        rintro ⟨j, hj⟩
        rw [firstUnit_eq_none_iff.mp h j (Nat.zero_le _)] at hj
        exact absurd hj (by decide)
      rw [hranges, or_iff_left hcode]
      constructor
      · intro hrtp
        by_contra hne
        exact RtpPacketizer.findNalUnits_of_none h hne hrtp
      · rintro rfl
        decide +kernel

/-- A frame behind its length instead of a start code: the packetizer alone sends its last three
bytes. -/
theorem scanners_disagree : ¬ ScannersAgree [0, 0, 0, 5, 0x65, 0x88, 0x84, 0x21, 0xA0] := by
  rw [ScannersAgree]
  decide +kernel

end LoongNvr.Network
