import LoongNvr.Network.RtpReceiver

/-!
# Network — H265Receiver

What a receiver of RFC 7798 makes of the frames of `RtpPacketizer` on a channel of H.265: it puts
NAL units together from single NAL unit packets and from fragmentation units, which are of type 49
and carry the type, layer and temporal id of the unit they are cut from.

The packetizer fragments every unit as RFC 6184 says.  A fragment's first byte, read as the header
of H.265, names one of the types 14, 30, 46 and 62.

* `depacketizeH265_single`, `standsAlone_of_depacketizeH265`: what is received without fragmentation
  units, and that nothing is received that is not a unit.
* `depacketizeH265_nalPayloads_iff`: when the units come back.
-/

namespace LoongNvr.Network
open Support AnnexB

/-! ### The receiver -/

/-- `nal_unit_type`, six bits of the first of the two header bytes. -/
def h265Type (header : UInt8) : UInt8 := header >>> 1 &&& 0x3F

/-- What a fragmentation unit makes of the unit being put together, and whether that is complete.
-/
def receiveFragment (pending : Option (List UInt8)) (header ids : UInt8) :
    List UInt8 → Option (List UInt8 × Bool)
  | [] => none
  | fuHeader :: frag =>
      let fuType := fuHeader &&& 0x3F
      let nal :=
        if fuHeader &&& 0x80 ≠ 0 then
          if pending.isNone ∧ fuType < 48 then
            some (((header &&& (0x81 : UInt8)) ||| (fuType <<< (1 : UInt8))) :: ids :: frag)
          else none
        else pending.map (· ++ frag)
      nal.map (·, fuHeader &&& 0x40 ≠ 0)

/-- The NAL units in the payloads, with the unit whose fragments are being put together.  Packets
that aggregate units, and the types above those, are not expected. -/
def depacketizeH265 : Option (List UInt8) → List (List UInt8) → Option (List (List UInt8))
  | pending, [] => if pending.isNone then some [] else none
  | pending, (header :: ids :: rest) :: payloads =>
      if h265Type header = 49 then do
        let (nal, complete) ← receiveFragment pending header ids rest
        if complete then
          let nals ← depacketizeH265 none payloads
          return nal :: nals
        else depacketizeH265 (some nal) payloads
      else if 48 ≤ h265Type header then none
      else if pending.isNone then do
        let nals ← depacketizeH265 none payloads
        return (header :: ids :: rest) :: nals
      else none
  | _, [] :: _ => none
  | _, [_] :: _ => none

/-- A slice of type 19 in three fragmentation units. -/
example : depacketizeH265 none
    [[0x62, 0x01, 0x93, 0xAF], [0x62, 0x01, 0x13, 0x08], [0x62, 0x01, 0x53, 0x40, 0x0F]] =
      some [[0x26, 0x01, 0xAF, 0x08, 0x40, 0x0F]] := by decide

/-! ### What is received -/

/-- A packet of a type below 48 is a NAL unit. -/
theorem depacketizeH265_single {header ids : UInt8} {rest : List UInt8}
    {payloads : List (List UInt8)} (h : h265Type header < 48) :
    depacketizeH265 none ((header :: ids :: rest) :: payloads) =
      (depacketizeH265 none payloads).map ((header :: ids :: rest) :: ·) := by
  have h49 : h265Type header ≠ 49 := by
    intro e
    rw [e] at h
    exact absurd h (by decide)
  have h48 : ¬ 48 ≤ h265Type header := UInt8.not_le.mpr h
  simp [depacketizeH265, h49, h48, Option.map_eq_bind]

/-- The header put together from a fragment's is of the type the fragment names. -/
theorem h265Type_fragment (header : UInt8) {fuType : UInt8} (h : fuType < 48) :
    h265Type ((header &&& (0x81 : UInt8)) ||| (fuType <<< (1 : UInt8))) = fuType := by
  have hids : ∀ n : Fin 256, UInt8.ofNat n &&& (0x81 : UInt8) ∈ ([0, 1, 0x80, 0x81] : List UInt8) := by
    decide +kernel
  have hall : ∀ ids ∈ ([0, 1, 0x80, 0x81] : List UInt8), ∀ n : Fin 48,
      h265Type (ids ||| (UInt8.ofNat n <<< (1 : UInt8))) = UInt8.ofNat n := by decide +kernel
  have hheader := hids ⟨header.toNat, header.toNat_lt⟩
  have := hall _ hheader ⟨fuType.toNat, UInt8.lt_iff_toNat_lt.mp h⟩
  rwa [UInt8.ofNat_toNat, UInt8.ofNat_toNat] at this

/-- A unit begins with a header of a type below 48. -/
def StandsAlone (nal : List UInt8) : Prop := ∃ header rest, nal = header :: rest ∧
  h265Type header < 48

theorem standsAlone_of_receiveFragment {pending : Option (List UInt8)} {header ids : UInt8}
    {rest nal : List UInt8} {complete : Bool} (hpending : ∀ begun ∈ pending, StandsAlone begun)
    (h : receiveFragment pending header ids rest = some (nal, complete)) : StandsAlone nal := by
  match rest with
  | [] => exact absurd h (by simp [receiveFragment])
  | fuHeader :: frag =>
      obtain ⟨nal', hnal, hpair⟩ := Option.map_eq_some_iff.mp h
      obtain rfl : nal' = nal := congrArg Prod.fst hpair
      split at hnal
      · split at hnal
        · rename_i hfirst
          obtain rfl := Option.some.inj hnal
          exact ⟨_, _, rfl, (h265Type_fragment header hfirst.2).symm ▸ hfirst.2⟩
        · exact absurd hnal (by simp)
      · obtain ⟨begun, hbegun, rfl⟩ := Option.map_eq_some_iff.mp hnal
        obtain ⟨first, more, rfl, htype⟩ := hpending begun hbegun
        exact ⟨first, more ++ frag, rfl, htype⟩

/-- **Nothing is received that is not a unit.** -/
theorem standsAlone_of_depacketizeH265 {pending : Option (List UInt8)}
    {payloads nals : List (List UInt8)} (hpending : ∀ begun ∈ pending, StandsAlone begun)
    (h : depacketizeH265 pending payloads = some nals) : ∀ nal ∈ nals, StandsAlone nal := by
  induction payloads generalizing pending nals with
  | nil =>
      rw [depacketizeH265] at h
      split at h
      · obtain rfl := Option.some.inj h
        exact fun nal hnal => absurd hnal List.not_mem_nil
      · exact absurd h (by simp)
  | cons payload payloads ih =>
      match payload with
      | [] => exact absurd h (by simp [depacketizeH265])
      | [_] => exact absurd h (by simp [depacketizeH265])
      | header :: ids :: rest =>
          rw [depacketizeH265] at h
          by_cases hfu : h265Type header = 49
          · rw [if_pos hfu] at h
            obtain ⟨⟨nal, complete⟩, hnal, h⟩ := Option.bind_eq_some_iff.mp h
            have halone := standsAlone_of_receiveFragment hpending hnal
            dsimp only at h
            split at h
            · obtain ⟨others, hothers, hnals⟩ := Option.bind_eq_some_iff.mp h
              obtain rfl := Option.some.inj hnals
              exact List.forall_mem_cons.mpr ⟨halone, ih (by simp) hothers⟩
            · refine ih ?_ h
              rintro _ ⟨⟩
              exact halone
          · rw [if_neg hfu] at h
            split at h
            · exact absurd h (by simp)
            · rename_i htype
              split at h
              · obtain ⟨others, hothers, hnals⟩ := Option.bind_eq_some_iff.mp h
                obtain rfl := Option.some.inj hnals
                exact List.forall_mem_cons.mpr
                  ⟨⟨_, _, rfl, UInt8.not_le.mp htype⟩, ih (by simp) hothers⟩
              · exact absurd h (by simp)

/-- **Without fragmentation units, each packet is a unit.** -/
theorem eq_of_depacketizeH265 {payloads nals : List (List UInt8)}
    (hfu : ∀ payload ∈ payloads, h265Type (payload.headD 0) ≠ 49)
    (h : depacketizeH265 none payloads = some nals) : nals = payloads := by
  induction payloads generalizing nals with
  | nil =>
      rw [depacketizeH265] at h
      exact (Option.some.inj h).symm
  | cons payload payloads ih =>
      match payload with
      | [] => exact absurd h (by simp [depacketizeH265])
      | [_] => exact absurd h (by simp [depacketizeH265])
      | header :: ids :: rest =>
          have hheader : h265Type header ≠ 49 := hfu _ List.mem_cons_self
          rw [depacketizeH265, if_neg hheader] at h
          split at h
          · exact absurd h (by simp)
          · obtain ⟨others, hothers, hnals⟩ := Option.bind_eq_some_iff.mp h
            obtain rfl := Option.some.inj hnals
            rw [ih (fun p hp => hfu p (List.mem_cons_of_mem _ hp)) hothers]

theorem depacketizeH265_of_standAlone {nals : List (List UInt8)}
    (h : ∀ nal ∈ nals, StandsAlone nal ∧ 2 ≤ nal.length) : depacketizeH265 none nals = some nals := by
  induction nals with
  | nil => rfl
  | cons nal nals ih =>
      obtain ⟨⟨⟨header, rest, rfl, htype⟩, hlen⟩, hnals⟩ := List.forall_mem_cons.mp h
      match rest with
      | [] => exact absurd hlen (by simp)
      | ids :: rest => rw [depacketizeH265_single htype, ih hnals, Option.map_some]

/-! ### What the packetizer sends -/

namespace RtpPacketizer

/-- Read as a header of H.265, the first byte of a fragment does not name a fragmentation unit. -/
theorem h265Type_indicator (nalHeader : UInt8) : h265Type (nalHeader &&& 0x60 ||| 28) ≠ 49 := by
  have hall : ∀ n : Fin 256, h265Type (UInt8.ofNat n &&& 0x60 ||| 28) ≠ 49 := by decide +kernel
  have := hall ⟨nalHeader.toNat, nalHeader.toNat_lt⟩
  rwa [UInt8.ofNat_toNat] at this

theorem headD_of_mem_fragmentPayloads {nri nalType : UInt8} {frag payload : List UInt8}
    {first : Bool} (h : payload ∈ fragmentPayloads nri nalType frag first) :
    payload.headD 0 = nri ||| 28 := by
  induction hn : frag.length using Nat.strong_induction_on generalizing frag first with
  | _ n ih =>
      by_cases e : frag = []
      · rw [fragmentPayloads, if_pos e] at h
        exact absurd h List.not_mem_nil
      have hpos := List.length_pos_iff.mpr e
      rw [fragmentPayloads, if_neg e] at h
      rcases List.mem_cons.mp h with rfl | h
      · rfl
      · refine ih _ ?_ h rfl
        simp only [List.length_drop, kMaxRtpPayload]
        omega

theorem h265Type_of_mem_nalPayloads {nal payload : List UInt8} (halone : StandsAlone nal)
    (h : payload ∈ nalPayloads nal) : h265Type (payload.headD 0) ≠ 49 := by
  obtain ⟨header, rest, rfl, htype⟩ := halone
  by_cases e : (header :: rest).length ≤ kMaxRtpPayload
  · rw [nalPayloads, if_pos e] at h
    obtain rfl := List.mem_singleton.mp h
    rintro (hfu : h265Type header = 49)
    rw [hfu] at htype
    exact absurd htype (by decide)
  · rw [nalPayloads, if_neg e] at h
    rw [headD_of_mem_fragmentPayloads h]
    exact h265Type_indicator header

theorem nalPayloads_of_le {nal : List UInt8} (hne : nal ≠ []) (h : nal.length ≤ kMaxRtpPayload) :
    nalPayloads nal = [nal] := by
  obtain ⟨header, rest, rfl⟩ := List.exists_cons_of_ne_nil hne
  rw [nalPayloads, if_pos h]

/-- Their payloads give units back exactly if each fits a packet and stands alone in it. -/
theorem depacketizeH265_nalPayloads_iff {nals : List (List UInt8)}
    (hlen : ∀ nal ∈ nals, 2 ≤ nal.length) :
    depacketizeH265 none (nals.flatMap nalPayloads) = some nals ↔
      ∀ nal ∈ nals, StandsAlone nal ∧ nal.length ≤ kMaxRtpPayload := by
  constructor
  · intro h
    have halone := standsAlone_of_depacketizeH265 (by simp) h
    have hsame : nals = nals.flatMap nalPayloads := by
      refine eq_of_depacketizeH265 (fun payload hpayload => ?_) h
      obtain ⟨nal, hnal, hmem⟩ := List.mem_flatMap.mp hpayload
      exact h265Type_of_mem_nalPayloads (halone nal hnal) hmem
    intro nal hnal
    refine ⟨halone nal hnal, ?_⟩
    rw [hsame] at hnal
    obtain ⟨_, -, hmem⟩ := List.mem_flatMap.mp hnal
    exact length_le_of_mem_nalPayloads hmem
  · intro h
    have hsingle : nals.flatMap nalPayloads = nals := by
      have hone : ∀ nal ∈ nals, nalPayloads nal = [nal] := by
        intro nal hnal
        refine nalPayloads_of_le ?_ (h nal hnal).2
        rintro rfl
        exact absurd (hlen _ hnal) (by simp)
      rw [List.flatMap_congr hone, List.flatMap_singleton']
    rw [hsingle]
    exact depacketizeH265_of_standAlone fun nal hnal => ⟨(h nal hnal).1, hlen nal hnal⟩

/-- The frames of an access unit give its units back to a receiver of H.265. -/
def RecoversH265 (self : RtpPacketizer) (units : List StreamUnit) (pts : ℤ) : Prop :=
  ∃ packets, readInterleaved (self.packetize (serialise units) pts).2.flatten = some packets ∧
    depacketizeH265 none (packets.map (·.2.payload)) = some (units.map (·.nal.bytes))

theorem recoversH265_iff_depacketizeH265 {self : RtpPacketizer} {units : List StreamUnit}
    {pts : ℤ} :
    self.RecoversH265 units pts ↔
      depacketizeH265 none ((units.map (·.nal.bytes)).flatMap nalPayloads) =
        some (units.map (·.nal.bytes)) := by
  have hread := self.readInterleaved_packetize units pts
  have hpayload := self.packetsOf_unitPayloads units pts
  constructor
  · rintro ⟨packets, hpackets, h⟩
    obtain rfl := Option.some.inj (hread.symm.trans hpackets)
    rw [List.map_map] at h
    rw [← hpayload]
    exact h
  · intro h
    refine ⟨_, hread, ?_⟩
    rw [List.map_map]
    rw [← hpayload] at h
    exact h

/-- **The units come back exactly if each fits one packet and is of a type below 48**, those above
being the types of RFC 7798's own packets. -/
theorem recoversH265_iff (ssrc : UInt32) (seq : UInt16) (channel : UInt8)
    (units : List StreamUnit) (pts : ℤ) (hlen : ∀ u ∈ units, 3 ≤ u.nal.bytes.length) :
    RecoversH265 { codec := .h265, ssrc := ssrc, seq := seq, channel := channel } units pts ↔
      ∀ u ∈ units, h265Type (u.nal.bytes.headD 0) < 48 ∧ u.nal.bytes.length ≤ kMaxRtpPayload := by
  have hlen' : ∀ nal ∈ units.map (·.nal.bytes), 2 ≤ nal.length := by
    intro nal hnal
    obtain ⟨u, hu, rfl⟩ := List.mem_map.mp hnal
    have := hlen u hu
    omega
  rw [recoversH265_iff_depacketizeH265, depacketizeH265_nalPayloads_iff hlen', List.forall_mem_map]
  refine forall₂_congr fun u _ => and_congr_left fun _ => ?_
  obtain ⟨header, rest, hbytes⟩ := List.exists_cons_of_ne_nil u.nal.ne_nil
  rw [hbytes]
  constructor
  · rintro ⟨_, _, h, htype⟩
    obtain ⟨rfl, -⟩ := List.cons.inj h
    exact htype
  · exact fun htype => ⟨header, rest, rfl, htype⟩

/-- A slice that fits. -/
def shortSlice : StreamUnit := ⟨true, [0x26, 0x01, 0xAF], by decide, by decide, by decide⟩

theorem recoversH265_short :
    RecoversH265 { codec := .h265, ssrc := 1, seq := 0, channel := 0 } [shortSlice] 0 :=
  (recoversH265_iff 1 0 0 [shortSlice] 0 (by decide)).mpr (by decide)

/-- A slice of one byte too many. -/
def longSlice : StreamUnit :=
  ⟨true, [0x26, 0x01] ++ List.replicate 1399 0xAF, by decide, by decide +kernel, by decide +kernel⟩

theorem recoversH265_refuted :
    (∀ u ∈ [longSlice], 3 ≤ u.nal.bytes.length) ∧
      ¬ RecoversH265 { codec := .h265, ssrc := 1, seq := 0, channel := 0 } [longSlice] 0 := by
  refine ⟨by decide +kernel, fun h => ?_⟩
  have h := (depacketizeH265_nalPayloads_iff (by decide +kernel)).mp
    (recoversH265_iff_depacketizeH265.mp h)
  exact absurd (h longSlice.nal.bytes (by simp)).2 (by decide +kernel)

end RtpPacketizer

end LoongNvr.Network
