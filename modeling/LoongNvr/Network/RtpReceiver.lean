import LoongNvr.Network.RtpPacketizer

/-!
# Network — RtpReceiver

What a receiver makes of the frames of `RtpPacketizer`: it takes the byte stream apart into
interleaved frames, the frames into RTP packets, and puts the NAL units together again, as
RFC 6184 says, from single NAL unit packets and FU-A fragments.

* `depacketize_nalPayloads`: a unit is put together from its payloads.
* `depacketize_nalPayloads_iff`: only those of the types 1 to 23 are.
* `readInterleaved_frame`: a frame is read back, whatever follows it.
* `packetizeAll_recovers`: over any sequence of calls, a receiver gets the access units back.
-/

namespace LoongNvr.Network
open Support AnnexB

/-! ### The receiver -/

/-- An RTP packet without padding, extension or contributing sources. -/
structure RtpPacket where
  marker : Bool
  payloadType : ℕ
  seq : ℕ
  timestamp : ℕ
  ssrc : ℕ
  payload : List UInt8
  deriving DecidableEq, Repr

/-- Version 2 and no more than the fixed header, then the payload. -/
def parseRtp (bs : List UInt8) : Option RtpPacket :=
  if 12 ≤ bs.length ∧ field bs 0 1 = 0x80 then
    some ⟨(field bs 1 1).testBit 7, field bs 1 1 % 128, field bs 2 2, field bs 4 4, field bs 8 4,
      bs.drop 12⟩
  else none

/-- A byte stream as interleaved frames, each `$`, a channel, a length and as many bytes of an RTP
packet. -/
def readInterleaved (bs : List UInt8) : Option (List (ℕ × RtpPacket)) :=
  if bs = [] then some []
  else if 4 ≤ bs.length ∧ field bs 0 1 = 0x24 ∧ 4 + field bs 2 2 ≤ bs.length then do
    let packet ← parseRtp ((bs.drop 4).take (field bs 2 2))
    let packets ← readInterleaved (bs.drop (4 + field bs 2 2))
    return (field bs 1 1, packet) :: packets
  else none
  termination_by bs.length
  decreasing_by
    simp only [List.length_drop]
    omega

/-- The types of NAL units proper.  Of the others 24 to 29 are those of aggregates and fragments,
and 0, 30 and 31 are reserved. -/
def IsNalUnitType (type : UInt8) : Prop := 1 ≤ type ∧ type ≤ 23

instance (type : UInt8) : Decidable (IsNalUnitType type) := inferInstanceAs (Decidable (_ ∧ _))

/-- The NAL units in the payloads, with the unit whose fragments are being put together.  Packets
of a reserved type, and fragments of what is no NAL unit, are ignored; packets that aggregate units,
and FU-B, are not expected. -/
def depacketize : Option (List UInt8) → List (List UInt8) → Option (List (List UInt8))
  | none, [] => some []
  | some _, [] => none
  | pending, (header :: rest) :: payloads =>
      let type := header &&& 0x1F
      if type = 28 then
        match rest with
        | [] => none
        | fuHeader :: frag =>
            if IsNalUnitType (fuHeader &&& 0x1F) then do
              let nal ← if fuHeader &&& 0x80 ≠ 0 then
                  if pending.isNone then some ((header &&& 0xE0 ||| fuHeader &&& 0x1F) :: frag)
                  else none
                else pending.map (· ++ frag)
              if fuHeader &&& 0x40 ≠ 0 then
                let nals ← depacketize none payloads
                return nal :: nals
              else depacketize (some nal) payloads
            else depacketize pending payloads
      else if 24 ≤ type ∧ type ≤ 29 then none
      else if IsNalUnitType type then
        if pending.isNone then do
          let nals ← depacketize none payloads
          return (header :: rest) :: nals
        else none
      else depacketize pending payloads
  | _, [] :: _ => none

/-! ### One payload received -/

section Receive

variable {indicator fuHeader : UInt8} {frag : List UInt8} {payloads : List (List UInt8)}

theorem depacketize_first (hfu : indicator &&& 0x1F = 28)
    (htype : IsNalUnitType (fuHeader &&& 0x1F)) (hstart : fuHeader &&& 0x80 ≠ 0) :
    depacketize none ((indicator :: fuHeader :: frag) :: payloads) =
      if fuHeader &&& 0x40 ≠ 0 then
        (depacketize none payloads).map
          (((indicator &&& 0xE0 ||| fuHeader &&& 0x1F) :: frag) :: ·)
      else
        depacketize (some ((indicator &&& 0xE0 ||| fuHeader &&& 0x1F) :: frag)) payloads := by
  simp [depacketize, hfu, htype, hstart, Option.map_eq_bind]

theorem depacketize_next {nal : List UInt8} (hfu : indicator &&& 0x1F = 28)
    (htype : IsNalUnitType (fuHeader &&& 0x1F)) (hstart : fuHeader &&& 0x80 = 0) :
    depacketize (some nal) ((indicator :: fuHeader :: frag) :: payloads) =
      if fuHeader &&& 0x40 ≠ 0 then (depacketize none payloads).map ((nal ++ frag) :: ·)
      else depacketize (some (nal ++ frag)) payloads := by
  simp [depacketize, hfu, htype, hstart, Option.map_eq_bind]

/-- A fragment of what is no NAL unit is passed over. -/
theorem depacketize_fragment_ignored (pending : Option (List UInt8)) (hfu : indicator &&& 0x1F = 28)
    (htype : ¬ IsNalUnitType (fuHeader &&& 0x1F)) :
    depacketize pending ((indicator :: fuHeader :: frag) :: payloads) =
      depacketize pending payloads := by
  cases pending <;> simp [depacketize, hfu, htype]

/-- A payload of the type of a NAL unit is one. -/
theorem depacketize_single {header : UInt8} {rest : List UInt8}
    (h : IsNalUnitType (header &&& 0x1F)) :
    depacketize none ((header :: rest) :: payloads) =
      (depacketize none payloads).map ((header :: rest) :: ·) := by
  have hother : header &&& 0x1F ≠ 28 ∧ ¬ (24 ≤ header &&& 0x1F ∧ header &&& 0x1F ≤ 29) := by
    generalize header &&& 0x1F = type at h
    simp only [IsNalUnitType, UInt8.le_iff_toNat_le, ← UInt8.toNat_inj, UInt8.reduceToNat, ne_eq]
      at h ⊢
    omega
  simp [depacketize, hother.1, hother.2, h, Option.map_eq_bind]

end Receive

/-! ### Payloads -/

namespace RtpPacketizer

/-- The payloads of the fragments. -/
def fragmentPayloads (nri nalType : UInt8) (frag : List UInt8) (first : Bool) :
    List (List UInt8) :=
  if frag = [] then []
  else
    let chunk := min frag.length (kMaxRtpPayload - 2)
    let last := chunk == frag.length
    ([nri ||| 28, nalType ||| (if first then 0x80 else 0) ||| (if last then 0x40 else 0)] ++
      frag.take chunk) :: fragmentPayloads nri nalType (frag.drop chunk) false
  termination_by frag.length
  decreasing_by
    have := List.length_pos_iff.mpr ‹_›
    simp only [List.length_drop, kMaxRtpPayload]
    omega

/-- The payloads of a NAL unit. -/
def nalPayloads : List UInt8 → List (List UInt8)
  | [] => []
  | nalHeader :: rest =>
      if (nalHeader :: rest).length ≤ kMaxRtpPayload then [nalHeader :: rest]
      else fragmentPayloads (nalHeader &&& 0x60) (nalHeader &&& 0x1F) rest true

/-- The marker on the last of a list, if it is wanted. -/
def withMarker (marker : Bool) : List (List UInt8) → List (List UInt8 × Bool)
  | [] => []
  | [payload] => [(payload, marker)]
  | payload :: next :: payloads => (payload, false) :: withMarker marker (next :: payloads)

/-- Packets emitted one after the other. -/
def emitAll (self : RtpPacketizer) (timestamp : UInt32) :
    List (List UInt8 × Bool) → RtpPacketizer × List (List UInt8)
  | [] => (self, [])
  | (payload, marker) :: payloads =>
      let (self, frame) := self.emitPacket payload timestamp marker
      let (self, frames) := self.emitAll timestamp payloads
      (self, frame :: frames)

theorem withMarker_cons {marker : Bool} {payload : List UInt8} {payloads : List (List UInt8)}
    (h : payloads ≠ []) :
    withMarker marker (payload :: payloads) = (payload, false) :: withMarker marker payloads := by
  cases payloads with
  | nil => exact absurd rfl h
  | cons => rfl

theorem withMarker_append {xs ys : List (List UInt8)} (h : ys ≠ []) :
    withMarker true (xs ++ ys) = withMarker false xs ++ withMarker true ys := by
  induction xs with
  | nil => rfl
  | cons x xs ih =>
      rw [List.cons_append, withMarker_cons (by simp [h]), ih]
      cases xs with
      | nil => rfl
      | cons => rfl

theorem emitAll_append (self : RtpPacketizer) (timestamp : UInt32)
    (ps qs : List (List UInt8 × Bool)) :
    self.emitAll timestamp (ps ++ qs) =
      let (self, frames) := self.emitAll timestamp ps
      let (self, more) := self.emitAll timestamp qs
      (self, frames ++ more) := by
  induction ps generalizing self with
  | nil => rfl
  | cons p ps ih =>
      simp only [List.cons_append, emitAll, ih]

theorem fragmentPayloads_ne_nil {nri nalType : UInt8} {frag : List UInt8} {first : Bool}
    (h : frag ≠ []) : fragmentPayloads nri nalType frag first ≠ [] := by
  rw [fragmentPayloads, if_neg h]
  exact List.cons_ne_nil _ _

/-- The fragmentation loop emits the payloads of the fragments, the marker on the last. -/
theorem emitFragments_eq (self : RtpPacketizer) (nri nalType : UInt8) (timestamp : UInt32)
    (marker : Bool) (frag : List UInt8) (first : Bool) :
    self.emitFragments nri nalType timestamp marker frag first =
      self.emitAll timestamp (withMarker marker (fragmentPayloads nri nalType frag first)) := by
  induction hn : frag.length using Nat.strong_induction_on generalizing self frag first with
  | _ n ih =>
      by_cases e : frag = []
      · rw [emitFragments, if_pos e, fragmentPayloads, if_pos e]
        rfl
      have hpos := List.length_pos_iff.mpr e
      rw [emitFragments, if_neg e, fragmentPayloads, if_neg e]
      simp only
      set chunk := min frag.length (kMaxRtpPayload - 2) with hchunk
      have hshort : (frag.drop chunk).length < n := by
        simp only [List.length_drop, hchunk, kMaxRtpPayload]
        omega
      -- the last fragment ends the unit, and carries the marker
      by_cases hlast : chunk = frag.length
      · have hdone : frag.drop chunk = [] := List.drop_eq_nil_of_le (by omega)
        have hend : ∀ first, fragmentPayloads nri nalType [] first = [] := fun first => by
          rw [fragmentPayloads, if_pos rfl]
        have hstop : ∀ self first,
            emitFragments self nri nalType timestamp marker [] first = (self, []) :=
          fun self first => by rw [emitFragments, if_pos rfl]
        simp only [hdone, hend, hstop, withMarker, emitAll, beq_iff_eq.mpr hlast, Bool.true_and]
      · have hmore : frag.drop chunk ≠ [] := by
          intro hdone
          have := List.drop_eq_nil_iff.mp hdone
          omega
        rw [withMarker_cons (fragmentPayloads_ne_nil hmore), emitAll, beq_eq_false_iff_ne.mpr hlast,
          ih _ hshort _ _ _ rfl]
        rfl

/-- A NAL unit's packets carry its payloads, the marker on the last. -/
theorem packetizeH264Nal_eq (self : RtpPacketizer) (nal : List UInt8) (timestamp : UInt32)
    (marker : Bool) :
    self.packetizeH264Nal nal timestamp marker =
      self.emitAll timestamp (withMarker marker (nalPayloads nal)) := by
  cases nal with
  | nil => rfl
  | cons nalHeader rest =>
      by_cases e : (nalHeader :: rest).length ≤ kMaxRtpPayload
      · simp only [packetizeH264Nal, nalPayloads, if_pos e]
        rfl
      · simp only [packetizeH264Nal, nalPayloads, if_neg e, emitFragments_eq]

theorem nalPayloads_ne_nil {nal : List UInt8} (h : nal ≠ []) : nalPayloads nal ≠ [] := by
  cases nal with
  | nil => exact absurd rfl h
  | cons nalHeader rest =>
      by_cases e : (nalHeader :: rest).length ≤ kMaxRtpPayload
      · rw [nalPayloads, if_pos e]
        exact List.cons_ne_nil _ _
      · rw [nalPayloads, if_neg e]
        refine fragmentPayloads_ne_nil fun hrest => e ?_
        simp [hrest, kMaxRtpPayload]

/-- The units' packets carry all their payloads, the marker on the very last. -/
theorem packetizeUnits_eq (self : RtpPacketizer) (data : List UInt8) (timestamp : UInt32)
    (nals : List (ℕ × ℕ)) (h : ∀ nal ∈ nals, bytesAt data nal ≠ []) :
    self.packetizeUnits data timestamp nals =
      self.emitAll timestamp
        (withMarker true (nals.flatMap fun nal => nalPayloads (bytesAt data nal))) := by
  induction nals generalizing self with
  | nil => rfl
  | cons nal nals ih =>
      have ih' := fun self => ih self fun nal hnal => h nal (List.mem_cons_of_mem _ hnal)
      simp only [packetizeUnits, packetizeH264Nal_eq, ih', List.flatMap_cons]
      cases nals with
      | nil => simp [emitAll, withMarker]
      | cons next nals =>
          have hne : (next :: nals).flatMap (fun nal => nalPayloads (bytesAt data nal)) ≠ [] := by
            have := nalPayloads_ne_nil (h next (by simp))
            simp [this]
          rw [withMarker_append hne, emitAll_append]
          rfl

/-! ### Units put together again -/

/-- What the two header bytes of a fragment say: that it is one, whether it is the first and the
last, and the type and the header of its unit. -/
theorem fragment_headers (nalHeader : UInt8) (first last : Bool) :
    let indicator := nalHeader &&& 0x60 ||| 28
    let fuHeader := nalHeader &&& 0x1F ||| (if first then 0x80 else 0) |||
      (if last then 0x40 else 0)
    indicator &&& 0x1F = 28 ∧ (fuHeader &&& 0x80 ≠ 0 ↔ first = true) ∧
      (fuHeader &&& 0x40 ≠ 0 ↔ last = true) ∧
      (IsNalUnitType (fuHeader &&& 0x1F) ↔ IsNalUnitType (nalHeader &&& 0x1F)) ∧
      (nalHeader &&& 0x80 = 0 → indicator &&& 0xE0 ||| fuHeader &&& 0x1F = nalHeader) := by
  have hall : ∀ n : Fin 256, ∀ first last : Bool,
      let nalHeader := UInt8.ofNat n
      let indicator := nalHeader &&& 0x60 ||| 28
      let fuHeader := nalHeader &&& 0x1F ||| (if first then 0x80 else 0) |||
        (if last then 0x40 else 0)
      indicator &&& 0x1F = 28 ∧ (fuHeader &&& 0x80 ≠ 0 ↔ first = true) ∧
        (fuHeader &&& 0x40 ≠ 0 ↔ last = true) ∧
        (IsNalUnitType (fuHeader &&& 0x1F) ↔ IsNalUnitType (nalHeader &&& 0x1F)) ∧
        (nalHeader &&& 0x80 = 0 → indicator &&& 0xE0 ||| fuHeader &&& 0x1F = nalHeader) := by
    decide +kernel
  have h := hall ⟨nalHeader.toNat, nalHeader.toNat_lt⟩ first last
  rwa [UInt8.ofNat_toNat] at h

/-- Fragments after the first complete the unit that was begun. -/
theorem depacketize_fragments {nalHeader : UInt8} (htype : IsNalUnitType (nalHeader &&& 0x1F))
    (frag nal : List UInt8) (payloads : List (List UInt8)) (h : frag ≠ []) :
    depacketize (some nal)
        (fragmentPayloads (nalHeader &&& 0x60) (nalHeader &&& 0x1F) frag false ++ payloads) =
      (depacketize none payloads).map ((nal ++ frag) :: ·) := by
  induction hn : frag.length using Nat.strong_induction_on generalizing frag nal with
  | _ n ih =>
      have hpos := List.length_pos_iff.mpr h
      rw [fragmentPayloads, if_neg h]
      simp only
      set chunk := min frag.length (kMaxRtpPayload - 2) with hchunk
      obtain ⟨hfu, hstart, hend, hfuType, -⟩ :=
        fragment_headers nalHeader false (chunk == frag.length)
      have hnext := not_not.mp (hstart.not.mpr Bool.false_ne_true)
      rw [List.cons_append, List.cons_append, List.cons_append, List.nil_append,
        depacketize_next hfu (hfuType.mpr htype) hnext]
      by_cases hlast : chunk = frag.length
      · have hdone : frag.drop chunk = [] := List.drop_eq_nil_of_le (by omega)
        have hall : frag.take chunk = frag := List.take_of_length_le (by omega)
        rw [if_pos (hend.mpr (by simpa using hlast)), hdone, fragmentPayloads, if_pos rfl, hall,
          List.nil_append]
      · have hmore : frag.drop chunk ≠ [] := by
          intro hdone
          have := List.drop_eq_nil_iff.mp hdone
          omega
        have hshort : (frag.drop chunk).length < n := by
          simp only [List.length_drop, hchunk, kMaxRtpPayload]
          omega
        rw [if_neg (fun e => hlast (by simpa using hend.mp e)), ih _ hshort _ _ hmore rfl,
          List.append_assoc, List.take_append_drop]

/-- A NAL unit that RFC 6184 lets be sent, whole or in fragments. -/
def Carriable (nal : List UInt8) : Prop := IsNalUnitType (nal.headD 0 &&& 0x1F)

/-- **A unit is put together from its payloads.** -/
theorem depacketize_nalPayloads {nal : List UInt8} (payloads : List (List UInt8)) (hne : nal ≠ [])
    (hforbidden : nal.headD 0 &&& 0x80 = 0) (hcarry : Carriable nal) :
    depacketize none (nalPayloads nal ++ payloads) =
      (depacketize none payloads).map (nal :: ·) := by
  obtain ⟨nalHeader, rest, rfl⟩ := List.exists_cons_of_ne_nil hne
  simp only [Carriable, List.headD_cons] at hforbidden hcarry
  by_cases e : (nalHeader :: rest).length ≤ kMaxRtpPayload
  · rw [nalPayloads, if_pos e]
    exact depacketize_single hcarry
  · have hrest : rest ≠ [] := by
      rintro rfl
      exact e (by simp [kMaxRtpPayload])
    rw [nalPayloads, if_neg e, fragmentPayloads, if_neg hrest]
    dsimp only
    set chunk := min rest.length (kMaxRtpPayload - 2) with hchunk
    obtain ⟨hfu, hstart, hend, hfuType, hheader⟩ :=
      fragment_headers nalHeader true (chunk == rest.length)
    -- more than one packet holds, so the first fragment is not the last
    have hlast : chunk ≠ rest.length := by
      simp only [List.length_cons, kMaxRtpPayload] at e
      simp only [hchunk, kMaxRtpPayload]
      omega
    have hmore : rest.drop chunk ≠ [] := by
      intro hdone
      have := List.drop_eq_nil_iff.mp hdone
      omega
    rw [List.cons_append, List.cons_append, List.cons_append, List.nil_append,
      depacketize_first hfu (hfuType.mpr hcarry) (hstart.mpr rfl),
      if_neg (fun h => hlast (by simpa using hend.mp h)), hheader hforbidden,
      depacketize_fragments hcarry _ _ _ hmore, List.cons_append, List.take_append_drop]

/-- The fragments of what is no NAL unit are passed over, all of them. -/
theorem depacketize_fragments_ignored {nalHeader : UInt8}
    (htype : ¬ IsNalUnitType (nalHeader &&& 0x1F)) (pending : Option (List UInt8))
    (frag : List UInt8) (first : Bool) (payloads : List (List UInt8)) :
    depacketize pending
        (fragmentPayloads (nalHeader &&& 0x60) (nalHeader &&& 0x1F) frag first ++ payloads) =
      depacketize pending payloads := by
  induction hn : frag.length using Nat.strong_induction_on generalizing frag first with
  | _ n ih =>
      by_cases e : frag = []
      · rw [fragmentPayloads, if_pos e, List.nil_append]
      have hpos := List.length_pos_iff.mpr e
      rw [fragmentPayloads, if_neg e]
      simp only
      set chunk := min frag.length (kMaxRtpPayload - 2) with hchunk
      have hshort : (frag.drop chunk).length < n := by
        simp only [List.length_drop, hchunk, kMaxRtpPayload]
        omega
      obtain ⟨hfu, -, -, hfuType, -⟩ := fragment_headers nalHeader first (chunk == frag.length)
      rw [List.cons_append, List.cons_append, List.cons_append, List.nil_append,
        depacketize_fragment_ignored pending hfu (hfuType.not.mpr htype), ih _ hshort _ _ rfl]

/-- What is no NAL unit and is sent whole does not come back. -/
theorem depacketize_whole_ne {header : UInt8} {rest : List UInt8}
    (htype : ¬ IsNalUnitType (header &&& 0x1F)) :
    depacketize none [header :: rest] ≠ some [header :: rest] := by
  by_cases hfu : header &&& 0x1F = 28
  · cases rest with
    | nil => simp [depacketize, hfu]
    | cons fuHeader frag =>
        by_cases hfuType : IsNalUnitType (fuHeader &&& 0x1F)
        · -- what comes back, if anything does, is a byte shorter
          by_cases hstart : fuHeader &&& 0x80 = 0
          · simp [depacketize, hfu, hfuType, hstart]
          · rw [depacketize_first hfu hfuType hstart]
            intro h
            split at h
            · have hlength := congrArg (·.map (·.map List.length)) h
              simp [depacketize] at hlength
            · cases h
        · rw [depacketize_fragment_ignored none hfu hfuType]
          simp [depacketize]
  · by_cases haggregate : 24 ≤ header &&& 0x1F ∧ header &&& 0x1F ≤ 29
    · simp [depacketize, hfu, haggregate]
    · simp [depacketize, hfu, haggregate, htype]

/-- **Which units come back** from their payloads: those of the types that are NAL units. -/
theorem depacketize_nalPayloads_iff {nal : List UInt8} (hne : nal ≠ [])
    (hforbidden : nal.headD 0 &&& 0x80 = 0) :
    depacketize none (nalPayloads nal) = some [nal] ↔ Carriable nal := by
  constructor
  · intro h
    by_contra hcarry
    obtain ⟨nalHeader, rest, rfl⟩ := List.exists_cons_of_ne_nil hne
    simp only [Carriable, List.headD_cons] at hcarry
    by_cases e : (nalHeader :: rest).length ≤ kMaxRtpPayload
    · rw [nalPayloads, if_pos e] at h
      exact depacketize_whole_ne hcarry h
    · rw [nalPayloads, if_neg e, ← List.append_nil (fragmentPayloads _ _ _ _),
        depacketize_fragments_ignored hcarry] at h
      cases h
  · intro hcarry
    have hback := depacketize_nalPayloads [] hne hforbidden hcarry
    rwa [List.append_nil] at hback

theorem depacketize_flatMap {nals : List (List UInt8)} (hne : ∀ nal ∈ nals, nal ≠ [])
    (hforbidden : ∀ nal ∈ nals, nal.headD 0 &&& 0x80 = 0) (hcarry : ∀ nal ∈ nals, Carriable nal) :
    depacketize none (nals.flatMap nalPayloads) = some nals := by
  induction nals with
  | nil => rfl
  | cons nal nals ih =>
      rw [List.flatMap_cons, depacketize_nalPayloads _ (hne _ (by simp)) (hforbidden _ (by simp))
        (hcarry _ (by simp)), ih (fun n hn => hne n (List.mem_cons_of_mem _ hn))
        (fun n hn => hforbidden n (List.mem_cons_of_mem _ hn))
        (fun n hn => hcarry n (List.mem_cons_of_mem _ hn)), Option.map_some]

/-- No payload is too long for a packet. -/
theorem length_le_of_mem_nalPayloads {nal payload : List UInt8} (h : payload ∈ nalPayloads nal) :
    payload.length ≤ kMaxRtpPayload := by
  have hfrag : ∀ n nri nalType frag first, frag.length = n →
      payload ∈ fragmentPayloads nri nalType frag first → payload.length ≤ kMaxRtpPayload := by
    intro n
    induction n using Nat.strong_induction_on with
    | _ n ih =>
        intro nri nalType frag first hn hmem
        by_cases e : frag = []
        · rw [fragmentPayloads, if_pos e] at hmem
          exact absurd hmem List.not_mem_nil
        have hpos := List.length_pos_iff.mpr e
        rw [fragmentPayloads, if_neg e] at hmem
        rcases List.mem_cons.mp hmem with rfl | hmem
        · simp only [List.length_append, List.length_cons, List.length_nil, List.length_take,
            kMaxRtpPayload]
          omega
        · refine ih _ ?_ nri nalType _ false rfl hmem
          simp only [List.length_drop, kMaxRtpPayload]
          omega
  cases nal with
  | nil => exact absurd h List.not_mem_nil
  | cons nalHeader rest =>
      by_cases e : (nalHeader :: rest).length ≤ kMaxRtpPayload
      · rw [nalPayloads, if_pos e] at h
        rw [List.mem_singleton.mp h]
        exact e
      · rw [nalPayloads, if_neg e] at h
        exact hfrag _ _ _ _ _ rfl h

/-! ### Frames read -/

/-- The packet that carries a payload. -/
def packetOf (self : RtpPacketizer) (timestamp : UInt32) (payload : List UInt8) (marker : Bool) :
    RtpPacket :=
  ⟨marker, 96, self.seq.toNat, timestamp.toNat, self.ssrc.toNat, payload⟩

theorem parseRtp_packet (self : RtpPacketizer) (timestamp : UInt32) (payload : List UInt8)
    (marker : Bool) :
    parseRtp ([kRtpVersion <<< 6, if marker then 96 ||| 0x80 else 96] ++ (be 2 self.seq.toNat ++
        (be 4 timestamp.toNat ++ (be 4 self.ssrc.toNat ++ payload)))) =
      some (self.packetOf timestamp payload marker) := by
  set b1 : UInt8 := if marker then 96 ||| 0x80 else 96 with hb1
  set bs := [kRtpVersion <<< 6, b1] ++ (be 2 self.seq.toNat ++
    (be 4 timestamp.toNat ++ (be 4 self.ssrc.toNat ++ payload))) with hbs
  have hlen : 12 ≤ bs.length := by
    simp only [hbs, List.length_append, length_be, List.length_cons, List.length_nil]
    omega
  have hversion : field bs 0 1 = 0x80 := rfl
  have hmarker : field bs 1 1 = b1.toNat := by
    have : field bs 1 1 = beNat [b1] := rfl
    rw [this, beNat, beNatFrom_cons]
    exact Nat.zero_add _
  have hseq : field bs 2 2 = self.seq.toNat := by
    rw [hbs]
    exact field_be _ rfl self.seq.toNat_lt
  have hstamp : field bs 4 4 = timestamp.toNat := by
    rw [hbs, ← List.append_assoc]
    exact field_be _ rfl timestamp.toNat_lt
  have hssrc : field bs 8 4 = self.ssrc.toNat := by
    rw [hbs, ← List.append_assoc, ← List.append_assoc]
    exact field_be _ rfl self.ssrc.toNat_lt
  have hpayload : bs.drop 12 = payload := by
    rw [hbs, ← List.append_assoc, ← List.append_assoc, ← List.append_assoc]
    exact List.drop_left' rfl
  have hbits : b1.toNat.testBit 7 = marker ∧ b1.toNat % 128 = 96 := by
    rw [hb1]
    cases marker <;> decide
  rw [parseRtp, if_pos ⟨hlen, hversion⟩, hmarker, hseq, hstamp, hssrc, hpayload, hbits.1, hbits.2,
    packetOf]

/-- A frame says how long its packet is. -/
theorem emitPacket_frame (self : RtpPacketizer) (timestamp : UInt32) (payload : List UInt8)
    (marker : Bool) (h : payload.length ≤ kMaxRtpPayload) :
    ∃ packet : List UInt8, packet.length = 12 + payload.length ∧
      parseRtp packet = some (self.packetOf timestamp payload marker) ∧
      (self.emitPacket payload timestamp marker).2 =
        [0x24, self.channel] ++ (be 2 packet.length ++ packet) := by
  refine ⟨_, ?_, self.parseRtp_packet timestamp payload marker, ?_⟩
  · simp only [List.length_append, length_be, List.length_cons, List.length_nil]
    omega
  · have hsize : (UInt16.ofNat (12 + payload.length)).toNat = 12 + payload.length := by
      rw [UInt16.toNat_ofNat', Nat.mod_eq_of_lt]
      simp only [kMaxRtpPayload] at h
      omega
    simp only [emitPacket, writeU16_eq, writeU32_eq, hsize, List.append_assoc, List.length_append,
      length_be, List.length_cons, List.length_nil]
    congr 3
    omega

/-- **A frame is read back**, whatever follows it. -/
theorem readInterleaved_frame (self : RtpPacketizer) (timestamp : UInt32) (payload : List UInt8)
    (marker : Bool) (rest : List UInt8) (h : payload.length ≤ kMaxRtpPayload) :
    readInterleaved ((self.emitPacket payload timestamp marker).2 ++ rest) =
      (readInterleaved rest).map
        ((self.channel.toNat, self.packetOf timestamp payload marker) :: ·) := by
  obtain ⟨packet, hlen, hparse, hframe⟩ := self.emitPacket_frame timestamp payload marker h
  have hlt : packet.length < 256 ^ 2 := by
    simp only [kMaxRtpPayload] at h
    omega
  rw [hframe, List.append_assoc, List.append_assoc]
  set bs := [0x24, self.channel] ++ (be 2 packet.length ++ (packet ++ rest)) with hbs
  have htotal : bs.length = 4 + packet.length + rest.length := by
    simp only [hbs, List.length_append, length_be, List.length_cons, List.length_nil]
    omega
  have hne : bs ≠ [] := List.ne_nil_of_length_pos (by omega)
  have hdollar : field bs 0 1 = 0x24 := rfl
  have hchannel : field bs 1 1 = self.channel.toNat := Nat.zero_add _
  have hsize : field bs 2 2 = packet.length := by
    rw [hbs]
    exact field_be _ rfl hlt
  have hbody : bs.drop 4 = packet ++ rest := by
    rw [hbs, ← List.append_assoc]
    exact List.drop_left' rfl
  rw [readInterleaved, if_neg hne, hsize, if_pos ⟨by omega, hdollar, by omega⟩, hbody,
    List.take_left, hparse, ← List.drop_drop, hbody, List.drop_left, hchannel]
  cases readInterleaved rest <;> rfl

/-- The packets of the frames, one for each payload, numbered on from the packetizer's counter. -/
def packetsOf (self : RtpPacketizer) (timestamp : UInt32) :
    List (List UInt8 × Bool) → List RtpPacket
  | [] => []
  | (payload, marker) :: payloads =>
      self.packetOf timestamp payload marker ::
        { self with seq := self.seq + 1 }.packetsOf timestamp payloads

section Emitted

variable (self : RtpPacketizer) (timestamp : UInt32) (payloads : List (List UInt8 × Bool))

theorem emitAll_fst : (self.emitAll timestamp payloads).1 =
    { self with seq := self.seq + UInt16.ofNat payloads.length } := by
  induction payloads generalizing self with
  | nil => simp [emitAll]
  | cons p payloads ih =>
      simp only [emitAll, emitPacket, ih, List.length_cons]
      congr 1
      apply UInt16.toNat_inj.mp
      simp only [UInt16.toNat_add, UInt16.toNat_ofNat', UInt16.toNat_one]
      omega

theorem readInterleaved_emitAll (rest : List UInt8)
    (h : ∀ p ∈ payloads, p.1.length ≤ kMaxRtpPayload) :
    readInterleaved ((self.emitAll timestamp payloads).2.flatten ++ rest) =
      (readInterleaved rest).map
        ((self.packetsOf timestamp payloads).map (self.channel.toNat, ·) ++ ·) := by
  induction payloads generalizing self with
  | nil => simp [emitAll, packetsOf]
  | cons p payloads ih =>
      have hstep := self.readInterleaved_frame timestamp p.1 p.2
      have ih' := ih { self with seq := self.seq + 1 } fun q hq => h q (List.mem_cons_of_mem _ hq)
      simp only [emitAll, List.flatten_cons, List.append_assoc]
      rw [hstep _ (h p (by simp))]
      simp only [emitPacket] at ih' ⊢
      rw [ih', Option.map_map]
      rfl

theorem packetsOf_payload : (self.packetsOf timestamp payloads).map (·.payload) =
    payloads.map (·.1) := by
  induction payloads generalizing self with
  | nil => rfl
  | cons p payloads ih => simp [packetsOf, packetOf, ih]

theorem packetsOf_marker : (self.packetsOf timestamp payloads).map (·.marker) =
    payloads.map (·.2) := by
  induction payloads generalizing self with
  | nil => rfl
  | cons p payloads ih => simp [packetsOf, packetOf, ih]

theorem timestamp_of_mem_packetsOf {packet : RtpPacket}
    (h : packet ∈ self.packetsOf timestamp payloads) : packet.timestamp = timestamp.toNat := by
  induction payloads generalizing self with
  | nil => exact absurd h List.not_mem_nil
  | cons p payloads ih =>
      rcases List.mem_cons.mp h with rfl | h
      · rfl
      · exact ih _ h

/-- **Sequence numbers increase by one**, modulo 2^16, from the packetizer's counter on. -/
theorem packetsOf_seq : (self.packetsOf timestamp payloads).map (·.seq) =
    (List.range payloads.length).map fun i => (self.seq.toNat + i) % 65536 := by
  induction payloads generalizing self with
  | nil => rfl
  | cons p payloads ih =>
      rw [packetsOf, List.map_cons, ih, List.length_cons, List.range_succ_eq_map, List.map_cons,
        List.map_map]
      congr 1
      · exact (Nat.mod_eq_of_lt self.seq.toNat_lt).symm
      · refine List.map_congr_left fun i _ => ?_
        simp only [UInt16.toNat_add, UInt16.toNat_one, Function.comp_apply]
        omega

end Emitted

theorem map_fst_withMarker (marker : Bool) (payloads : List (List UInt8)) :
    (withMarker marker payloads).map (·.1) = payloads := by
  induction payloads with
  | nil => rfl
  | cons p payloads ih =>
      cases payloads with
      | nil => rfl
      | cons q payloads => rw [withMarker, List.map_cons, ih]

/-- The marker is on the last and on no other. -/
theorem getElem_withMarker (payloads : List (List UInt8)) (i : ℕ)
    (hi : i < (withMarker true payloads).length) :
    ((withMarker true payloads)[i]).2 = true ↔ i + 1 = payloads.length := by
  induction payloads generalizing i with
  | nil => exact absurd hi (by simp [withMarker])
  | cons p payloads ih =>
      cases payloads with
      | nil =>
          simp only [withMarker, List.length_singleton] at hi ⊢
          simp [show i = 0 by omega]
      | cons q payloads =>
          cases i with
          | zero => simp [withMarker]
          | succ i =>
              simp only [withMarker, List.getElem_cons_succ, List.length_cons] at hi ⊢
              rw [ih i (by omega), List.length_cons]
              omega

/-! ### Access units -/

/-- `Packetize`, call after call: the frames of each. -/
def packetizeAll (self : RtpPacketizer) :
    List (List UInt8 × ℤ) → RtpPacketizer × List (List (List UInt8))
  | [] => (self, [])
  | (data, pts) :: calls =>
      let (self, frames) := self.packetize data pts
      let (self, more) := self.packetizeAll calls
      (self, frames :: more)

/-- What the frames of one access unit are to a receiver. -/
structure Carries (channel : UInt8) (units : List StreamUnit) (frames : List (List UInt8))
    (packets : List RtpPacket) : Prop where
  read : readInterleaved frames.flatten = some (packets.map (channel.toNat, ·))
  length : ∀ frame ∈ frames, frame.length = 4 + field frame 2 2
  nals : depacketize none (packets.map (·.payload)) = some (units.map (·.nal.bytes))
  fits : ∀ packet ∈ packets, packet.payload.length ≤ kMaxRtpPayload
  stamp : ∃ timestamp, ∀ packet ∈ packets, packet.timestamp = timestamp
  marker : ∀ i (hi : i < packets.length), packets[i].marker = true ↔ i + 1 = packets.length

/-- `forbidden_zero_bit` of every unit is 0. -/
def ForbiddenBitsZero (units : List StreamUnit) : Prop :=
  ∀ u ∈ units, u.nal.bytes.headD 0 &&& 0x80 = 0

/-- The payloads of an access unit, with their markers. -/
def unitPayloads (units : List StreamUnit) : List (List UInt8 × Bool) :=
  withMarker true ((units.map (·.nal.bytes)).flatMap nalPayloads)

theorem length_le_of_mem_unitPayloads {units : List StreamUnit} {p : List UInt8 × Bool}
    (h : p ∈ unitPayloads units) : p.1.length ≤ kMaxRtpPayload := by
  have hmem := List.mem_map_of_mem (f := (·.1)) h
  rw [unitPayloads, map_fst_withMarker, List.mem_flatMap] at hmem
  obtain ⟨nal, -, hmem⟩ := hmem
  exact length_le_of_mem_nalPayloads hmem

/-- An access unit is sent as the payloads of its units. -/
theorem packetize_serialise (self : RtpPacketizer) (units : List StreamUnit) (pts : ℤ) :
    self.packetize (serialise units) pts =
      self.emitAll (toTimestamp pts) (unitPayloads units) := by
  have hbytes := map_bytesAt_offsets [] units
  rw [List.nil_append, List.length_nil] at hbytes
  have hne : ∀ nal ∈ offsets 0 units, bytesAt (serialise units) nal ≠ [] := by
    intro nal hnal
    have hmem := List.mem_map_of_mem (f := bytesAt (serialise units)) hnal
    rw [hbytes, List.mem_map] at hmem
    obtain ⟨u, -, hu⟩ := hmem
    rw [← hu]
    exact u.nal.ne_nil
  rw [packetize, findNalUnits_serialise, packetizeUnits_eq _ _ _ _ hne, unitPayloads, ← hbytes,
    List.flatMap_map]

theorem length_of_mem_emitAll (self : RtpPacketizer) (timestamp : UInt32)
    (payloads : List (List UInt8 × Bool)) (h : ∀ p ∈ payloads, p.1.length ≤ kMaxRtpPayload)
    {frame : List UInt8} (hframe : frame ∈ (self.emitAll timestamp payloads).2) :
    frame.length = 4 + field frame 2 2 := by
  induction payloads generalizing self with
  | nil => exact absurd hframe List.not_mem_nil
  | cons p payloads ih =>
      rcases List.mem_cons.mp hframe with e | hframe
      · change frame = (self.emitPacket p.1 timestamp p.2).2 at e
        have hp := h p (by simp)
        obtain ⟨packet, hlen, -, hbytes⟩ := self.emitPacket_frame timestamp p.1 p.2 hp
        have hsize : field ([0x24, self.channel] ++ (be 2 packet.length ++ packet)) 2 2 =
            packet.length := by
          refine field_be _ rfl ?_
          simp only [kMaxRtpPayload] at hp
          omega
        rw [e, hbytes, hsize]
        simp only [List.length_append, length_be, List.length_cons, List.length_nil]
        omega
      · exact ih _ (fun q hq => h q (List.mem_cons_of_mem _ hq)) hframe

/-- The packets of an access unit are read back from its frames, -/
theorem readInterleaved_packetize (self : RtpPacketizer) (units : List StreamUnit) (pts : ℤ) :
    readInterleaved (self.packetize (serialise units) pts).2.flatten =
      some ((self.packetsOf (toTimestamp pts) (unitPayloads units)).map
        (self.channel.toNat, ·)) := by
  have hread := self.readInterleaved_emitAll (toTimestamp pts) (unitPayloads units) []
    fun p hp => length_le_of_mem_unitPayloads hp
  rw [List.append_nil] at hread
  rw [packetize_serialise, hread, readInterleaved, if_pos rfl]
  simp

/-- with the payloads of its units. -/
theorem packetsOf_unitPayloads (self : RtpPacketizer) (units : List StreamUnit) (pts : ℤ) :
    (self.packetsOf (toTimestamp pts) (unitPayloads units)).map (·.payload) =
      (units.map (·.nal.bytes)).flatMap nalPayloads := by
  rw [packetsOf_payload, unitPayloads, map_fst_withMarker]

/-- One call: the frames of an access unit carry it. -/
theorem packetize_carries (self : RtpPacketizer) (units : List StreamUnit) (pts : ℤ)
    (hforbidden : ForbiddenBitsZero units) (hcarry : ∀ u ∈ units, Carriable u.nal.bytes) :
    Carries self.channel units (self.packetize (serialise units) pts).2
      (self.packetsOf (toTimestamp pts) (unitPayloads units)) := by
  have hfits := fun p (hp : p ∈ unitPayloads units) => length_le_of_mem_unitPayloads hp
  have hpayload := self.packetsOf_unitPayloads units pts
  have hmarker := self.packetsOf_marker (toTimestamp pts) (unitPayloads units)
  have hlen : (self.packetsOf (toTimestamp pts) (unitPayloads units)).length =
      ((units.map (·.nal.bytes)).flatMap nalPayloads).length := by
    rw [← hpayload, List.length_map]
  refine ⟨self.readInterleaved_packetize units pts, fun frame hframe => ?_, ?_, ?_,
    ⟨_, fun packet => self.timestamp_of_mem_packetsOf _ _⟩, ?_⟩
  · rw [packetize_serialise] at hframe
    exact self.length_of_mem_emitAll _ _ hfits hframe
  · rw [hpayload]
    refine depacketize_flatMap ?_ ?_ ?_ <;> intro nal hnal <;>
      obtain ⟨u, hu, rfl⟩ := List.mem_map.mp hnal
    · exact u.nal.ne_nil
    · exact hforbidden u hu
    · exact hcarry u hu
  · intro packet hpacket
    have hmem := List.mem_map_of_mem (f := (·.payload)) hpacket
    rw [hpayload, List.mem_flatMap] at hmem
    obtain ⟨nal, -, hmem⟩ := hmem
    exact length_le_of_mem_nalPayloads hmem
  · intro i hi
    have hi' : i < (unitPayloads units).length := by
      have := congrArg List.length hmarker
      simp only [List.length_map] at this
      omega
    have hat : (self.packetsOf (toTimestamp pts) (unitPayloads units))[i].marker =
        ((unitPayloads units)[i]).2 := by
      have := List.getElem_of_eq hmarker (i := i) (by simpa using hi)
      simpa using this
    rw [hat, hlen]
    exact getElem_withMarker _ i hi'

/-- **A receiver gets the access units back.**  For every sequence of calls, each with the stream
of its units: the frames of a call are interleaved frames of the packetizer's channel that say
their length; their packets hold no more than they may, share a timestamp, have the marker on the
last alone, and put together give the units in order.  Over all calls the sequence numbers
increase by one. -/
theorem packetizeAll_recovers (self : RtpPacketizer) (calls : List (List StreamUnit × ℤ))
    (hforbidden : ∀ call ∈ calls, ForbiddenBitsZero call.1)
    (hcarry : ∀ call ∈ calls, ∀ u ∈ call.1, Carriable u.nal.bytes) :
    let frames := (self.packetizeAll (calls.map fun call => (serialise call.1, call.2))).2
    frames.length = calls.length ∧
      (∀ p ∈ calls.zip frames, ∃ packets, Carries self.channel p.1.1 p.2 packets) ∧
      ∃ packets, readInterleaved frames.flatten.flatten = some packets ∧
        packets.map (·.2.seq) =
          (List.range packets.length).map fun i => (self.seq.toNat + i) % 65536 := by
  induction calls generalizing self with
  | nil => exact ⟨rfl, by simp, [], by simp [packetizeAll, readInterleaved], rfl⟩
  | cons call calls ih =>
      have hcall := self.packetize_carries call.1 call.2 (hforbidden call (by simp))
        (hcarry call (by simp))
      set self' : RtpPacketizer :=
        { self with seq := self.seq + UInt16.ofNat (unitPayloads call.1).length } with hself'
      have hnext : (self.packetize (serialise call.1) call.2).1 = self' := by
        rw [packetize_serialise, emitAll_fst]
      obtain ⟨hlen, hcarries, packets, hread, hseq⟩ := ih self'
        (fun c hc => hforbidden c (List.mem_cons_of_mem _ hc))
        (fun c hc => hcarry c (List.mem_cons_of_mem _ hc))
      simp only [List.map_cons, packetizeAll, hnext]
      refine ⟨by simp [hlen], fun p hp => ?_, ?_⟩
      · rcases List.mem_cons.mp hp with rfl | hp
        · exact ⟨_, hcall⟩
        · exact hcarries p hp
      · set first := self.packetsOf (toTimestamp call.2) (unitPayloads call.1) with hfirst
        have hcount : first.length = (unitPayloads call.1).length := by
          have := congrArg List.length
            (self.packetsOf_payload (toTimestamp call.2) (unitPayloads call.1))
          simpa using this
        refine ⟨first.map (self.channel.toNat, ·) ++ packets, ?_, ?_⟩
        · rw [List.flatten_cons, List.flatten_append, packetize_serialise,
            readInterleaved_emitAll _ _ _ _ fun p hp => length_le_of_mem_unitPayloads hp, hread]
          rfl
        · -- the second call numbers on from where the first stopped
          rw [List.map_append, hseq, List.map_map, List.length_append, List.length_map,
            List.range_add, List.map_append, List.map_map]
          congr 1
          · rw [hcount]
            exact self.packetsOf_seq _ _
          · refine List.map_congr_left fun i _ => ?_
            simp only [hself', hcount, UInt16.toNat_add, UInt16.toNat_ofNat', Function.comp_apply]
            omega

/-- A parameter set, in an access unit behind a start code of four bytes. -/
def spsUnit : StreamUnit := ⟨true, [0x67, 0x42, 0x1E], by decide, by decide, by decide⟩

/-- A slice behind a start code of three bytes. -/
def sliceUnit : StreamUnit := ⟨false, [0x65, 0x88, 0x84], by decide, by decide, by decide⟩

/-- Two calls of a packetizer about to wrap its counter: four packets, numbered 65534 to 1. -/
theorem packetizeAll_recovers_wrap :
    let self : RtpPacketizer := { codec := .h264, seq := 65534 }
    let frames := (self.packetizeAll
      [(serialise [spsUnit, sliceUnit], 0), (serialise [spsUnit, sliceUnit], 40000)]).2
    ∃ packets, readInterleaved frames.flatten.flatten = some packets ∧
      packets.map (·.2.seq) = [65534, 65535, 0, 1] := by
  intro self frames
  obtain ⟨-, -, packets, hread, hseq⟩ := packetizeAll_recovers { codec := .h264, seq := 65534 }
    [([spsUnit, sliceUnit], 0), ([spsUnit, sliceUnit], 40000)]
    (by simp only [ForbiddenBitsZero, spsUnit, sliceUnit]; decide)
    (by simp only [Carriable, spsUnit, sliceUnit]; decide)
  refine ⟨packets, hread, ?_⟩
  have hcount : packets.length = 4 := by
    have hfour : (readInterleaved frames.flatten.flatten).map (·.length) = some 4 := by
      decide +kernel
    change readInterleaved frames.flatten.flatten = _ at hread
    rw [hread] at hfour
    simpa using hfour
  rw [hseq, hcount]
  decide

/-- A unit of the type that marks fragments. -/
def fragmentTypedUnit : StreamUnit := ⟨true, [0x1C, 0xC5, 0x88], by decide, by decide, by decide⟩

/-- A unit of a reserved type. -/
def reservedUnit : StreamUnit := ⟨true, [0x1F, 0xC5, 0x88], by decide, by decide, by decide⟩

/-- What the frames of a unit give that is sent alone. -/
def received (unit : StreamUnit) : Option (Option (List (List UInt8))) :=
  (readInterleaved (packetize { codec := .h264 } (serialise [unit]) 0).2.flatten).map
    fun packets => depacketize none (packets.map (·.2.payload))

/-- A unit whose frames give something else is not carried by them. -/
theorem not_carries_of_received {unit : StreamUnit} {nals : List (List UInt8)}
    (hreceived : received unit = some (some nals)) (hother : nals ≠ [unit.nal.bytes]) :
    ¬ ∃ packets, Carries 0 [unit]
      (packetize { codec := .h264 } (serialise [unit]) 0).2 packets := by
  rintro ⟨packets, hread, -, hnals, -⟩
  have hsame : packets.map ((·.2.payload) ∘ ((0 : UInt8).toNat, ·)) = packets.map (·.payload) := rfl
  rw [received, hread, Option.map_some, List.map_map, hsame, hnals] at hreceived
  exact hother (Option.some.inj (Option.some.inj hreceived)).symm

/-- **Units of other types do not come back**: sent alone in a packet, one is taken for a fragment
of another unit, and one is ignored. -/
theorem packetize_fragmentTyped :
    (ForbiddenBitsZero [fragmentTypedUnit] ∧ ForbiddenBitsZero [reservedUnit]) ∧
      (¬ ∃ packets, Carries 0 [fragmentTypedUnit]
        (packetize { codec := .h264 } (serialise [fragmentTypedUnit]) 0).2 packets) ∧
      ¬ ∃ packets, Carries 0 [reservedUnit]
        (packetize { codec := .h264 } (serialise [reservedUnit]) 0).2 packets := by
  have hfragment : received fragmentTypedUnit = some (some [[0x05, 0x88]]) := by decide +kernel
  have hreserved : received reservedUnit = some (some []) := by decide +kernel
  refine ⟨?_, not_carries_of_received hfragment (by decide),
    not_carries_of_received hreserved (by decide)⟩
  simp only [ForbiddenBitsZero, fragmentTypedUnit, reservedUnit]
  decide

end RtpPacketizer

end LoongNvr.Network
