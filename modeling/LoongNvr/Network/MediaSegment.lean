import LoongNvr.Network.Fmp4Muxer

/-!
# Network — MediaSegment

What a reader of the ISO base media format finds in the media segments `Fmp4Muxer` makes.

* `Trun`, `parseTrun`: a track run, read by its own flags.
* `makeMoof_eq`: the patched `moof` is the one assembled with the right data offset from the start.
* `makeMediaSegment_roundTrip`: the segment is `moof{mfhd, traf{tfhd, tfdt, trun}}` and `mdat`,
  its fields say where and how long the sample is, and the sample is the frame's units but for
  the parameter sets.
-/

namespace LoongNvr.Network
open Support AnnexB Bmff LoongNvr.Core

/-! ### Reading a track run -/

/-- A sample of a track run: the fields its flags declare. -/
structure TrunSample where
  duration : Option ℕ
  size : Option ℕ
  flags : Option ℕ
  compositionTimeOffset : Option ℕ
  deriving DecidableEq, Repr

structure Trun where
  dataOffset : Option ℕ
  firstSampleFlags : Option ℕ
  samples : List TrunSample
  deriving DecidableEq, Repr

/-- A four-byte field at `pos`, if it is declared, and where the next field is. -/
def optionalField (bs : List UInt8) (declared : Bool) (pos : ℕ) : Option ℕ × ℕ :=
  if declared then (some (field bs pos 4), pos + 4) else (none, pos)

def parseSamples (bs : List UInt8) (flags : ℕ) : ℕ → ℕ → List TrunSample
  | 0, _ => []
  | count + 1, pos =>
      let duration := optionalField bs (flags.testBit 8) pos
      let size := optionalField bs (flags.testBit 9) duration.2
      let sampleFlags := optionalField bs (flags.testBit 10) size.2
      let offset := optionalField bs (flags.testBit 11) sampleFlags.2
      ⟨duration.1, size.1, sampleFlags.1, offset.1⟩ :: parseSamples bs flags count offset.2

/-- The track run in the payload of a `trun` box: version, flags, sample count, and what the flags
declare. -/
def parseTrun (bs : List UInt8) : Trun :=
  let flags := field bs 1 3
  let dataOffset := optionalField bs (flags.testBit 0) 8
  let firstSampleFlags := optionalField bs (flags.testBit 2) dataOffset.2
  ⟨dataOffset.1, firstSampleFlags.1, parseSamples bs flags (field bs 4 4) firstSampleFlags.2⟩

namespace Fmp4Muxer

/-- The units of a frame that go in its sample. -/
def sampleUnits (data : List UInt8) (codec : CodecType) : List NalUnit :=
  (parseAnnexB data).filter (!isParameterSet codec ·.type)

/-! ### The data offset -/

theorem patchU32_append (pre post : List UInt8) (a val : UInt32) :
    patchU32 (pre ++ (writeU32 a ++ post)) pre.length val = pre ++ (writeU32 val ++ post) := by
  simp [patchU32, writeU32]

/-- Where the data offset stands in a `trun`. -/
theorem makeTrun_split (duration sampleSize : UInt32) (isKeyframe : Bool) :
    ∃ head tail : List UInt8, head.length = 16 ∧ tail.length = 12 ∧
      ∀ dataOffset, makeTrun dataOffset duration sampleSize isKeyframe =
        head ++ (writeU32 dataOffset ++ tail) := by
  refine ⟨writeU32 32 ++
      (FourCc.bytes ⟨'t', 'r', 'u', 'n'⟩ ++ 0 :: (writeU24 trunFlags ++ writeU32 1)),
    writeU32 duration ++ (writeU32 sampleSize ++
      writeU32 (if isKeyframe then 0x02000000 else 0x01010000)), ?_, ?_, fun dataOffset => ?_⟩
  · simp [writeU32_eq, writeU24_eq]
  · simp [writeU32_eq]
  · simp [makeTrun, makeFullBox, makeBox, writeU32_eq, writeU24_eq]

/-- **Writing the offset over its placeholder is as good as knowing it**: the `moof` has 100
bytes, and the sample begins after the 8-byte header that follows it. -/
theorem makeMoof_eq (sequenceNumber : UInt32) (decodeTime : UInt64) (duration sampleSize : UInt32)
    (isKeyframe : Bool) :
    makeMoof sequenceNumber decodeTime duration sampleSize isKeyframe =
      makeBox ⟨'m', 'o', 'o', 'f'⟩ (makeMfhd sequenceNumber ++
        makeBox ⟨'t', 'r', 'a', 'f'⟩ (makeTfhd ++ makeTfdt decodeTime ++
          makeTrun 108 duration sampleSize isKeyframe)) := by
  obtain ⟨head, tail, hhead, htail, htrun⟩ := makeTrun_split duration sampleSize isKeyframe
  have hmfhd : (makeMfhd sequenceNumber).length = 16 := by simp [makeMfhd, writeU32_eq]
  have htfhd : makeTfhd.length = 16 := by simp [makeTfhd, writeU32_eq]
  have htfdt : (makeTfdt decodeTime).length = 20 := by simp [makeTfdt, writeU64_eq]
  -- everything before the offset, which no field of it depends on
  obtain ⟨pre, hpre, hsplit⟩ : ∃ pre : List UInt8, pre.length = 84 ∧ ∀ dataOffset,
      makeBox ⟨'m', 'o', 'o', 'f'⟩ (makeMfhd sequenceNumber ++
        makeBox ⟨'t', 'r', 'a', 'f'⟩ (makeTfhd ++ makeTfdt decodeTime ++
          makeTrun dataOffset duration sampleSize isKeyframe)) =
        pre ++ (writeU32 dataOffset ++ tail) := by
    refine ⟨writeU32 100 ++ (FourCc.bytes ⟨'m', 'o', 'o', 'f'⟩ ++ (makeMfhd sequenceNumber ++
      (writeU32 76 ++ (FourCc.bytes ⟨'t', 'r', 'a', 'f'⟩ ++ (makeTfhd ++ (makeTfdt decodeTime ++
        head)))))), ?_, fun dataOffset => ?_⟩
    · simp [writeU32_eq, hmfhd, htfhd, htfdt, hhead]
    · rw [htrun]
      simp only [makeBox, List.length_append, writeU32_eq, length_be, FourCc.length_bytes, hmfhd,
        htfhd, htfdt, hhead, htail, List.append_assoc]
      rfl
  have hlen : (pre ++ (writeU32 0 ++ tail)).length = 100 := by simp [hpre, htail, writeU32_eq]
  have hpos : 8 + (makeMfhd sequenceNumber).length + 8 + makeTfhd.length +
      (makeTfdt decodeTime).length + 8 + 4 + 4 = pre.length := by rw [hmfhd, htfhd, htfdt, hpre]
  simp only [makeMoof, hsplit, hlen, hpos]
  rw [if_pos (by omega), patchU32_append]
  rfl

/-! ### What a reader finds -/

theorem parseBoxes_makeBox {type : FourCc} {payload rest : List UInt8}
    (h : 8 + payload.length < 2 ^ 32) :
    parseBoxes (makeBox type payload ++ rest) =
      (parseBoxes rest).map (⟨type.bytes, payload⟩ :: ·) := by
  rw [makeBox_eq h, List.append_assoc, List.append_assoc, parseBoxes_cons type payload rest h]

/-- The payload of a full box. -/
def fullPayload (version : UInt8) (flags : UInt32) (payload : List UInt8) : List UInt8 :=
  version :: (writeU24 flags ++ payload)

@[simp] theorem length_fullPayload (version : UInt8) (flags : UInt32) (payload : List UInt8) :
    (fullPayload version flags payload).length = 4 + payload.length := by
  simp only [fullPayload, List.length_cons, List.length_append, writeU24_eq, length_be]
  omega

/-- The first field after the version and the flags. -/
theorem field_fullPayload {k n : ℕ} (version : UInt8) (flags : UInt32) (h : n < 256 ^ k) :
    field (fullPayload version flags (be k n)) 4 k = n := by
  have hsplit : fullPayload version flags (be k n) =
      (version :: be 3 flags.toNat) ++ (be k n ++ []) := by
    rw [fullPayload, writeU24_eq, List.append_nil, List.cons_append]
  rw [hsplit, field_be _ (by simp) h]

/-- The payload of the one `trun` there is. -/
def trunPayload (duration sampleSize : UInt32) (isKeyframe : Bool) : List UInt8 :=
  fullPayload 0 trunFlags (writeU32 1 ++ writeU32 108 ++ writeU32 duration ++
    writeU32 sampleSize ++ writeU32 (if isKeyframe then 0x02000000 else 0x01010000))

def trafPayload (decodeTime : UInt64) (duration sampleSize : UInt32) (isKeyframe : Bool) :
    List UInt8 :=
  makeBox ⟨'t', 'f', 'h', 'd'⟩ (fullPayload 0 0x020000 (writeU32 1)) ++
    (makeBox ⟨'t', 'f', 'd', 't'⟩ (fullPayload 1 0 (writeU64 decodeTime)) ++
      (makeBox ⟨'t', 'r', 'u', 'n'⟩ (trunPayload duration sampleSize isKeyframe) ++ []))

def moofPayload (sequenceNumber : UInt32) (decodeTime : UInt64) (duration sampleSize : UInt32)
    (isKeyframe : Bool) : List UInt8 :=
  makeBox ⟨'m', 'f', 'h', 'd'⟩ (fullPayload 0 0 (writeU32 sequenceNumber)) ++
    (makeBox ⟨'t', 'r', 'a', 'f'⟩ (trafPayload decodeTime duration sampleSize isKeyframe) ++ [])

theorem length_trafPayload (decodeTime : UInt64) (duration sampleSize : UInt32)
    (isKeyframe : Bool) : (trafPayload decodeTime duration sampleSize isKeyframe).length = 68 := by
  simp [trafPayload, trunPayload, writeU32_eq, writeU64_eq]

theorem length_moofPayload (sequenceNumber : UInt32) (decodeTime : UInt64)
    (duration sampleSize : UInt32) (isKeyframe : Bool) :
    (moofPayload sequenceNumber decodeTime duration sampleSize isKeyframe).length = 92 := by
  simp [moofPayload, length_trafPayload, writeU32_eq]

theorem parseBoxes_trafPayload (decodeTime : UInt64) (duration sampleSize : UInt32)
    (isKeyframe : Bool) :
    parseBoxes (trafPayload decodeTime duration sampleSize isKeyframe) =
      some [⟨FourCc.bytes ⟨'t', 'f', 'h', 'd'⟩, fullPayload 0 0x020000 (writeU32 1)⟩,
        ⟨FourCc.bytes ⟨'t', 'f', 'd', 't'⟩, fullPayload 1 0 (writeU64 decodeTime)⟩,
        ⟨FourCc.bytes ⟨'t', 'r', 'u', 'n'⟩, trunPayload duration sampleSize isKeyframe⟩] := by
  rw [trafPayload, parseBoxes_makeBox (by simp [writeU32_eq]),
    parseBoxes_makeBox (by simp [writeU64_eq]),
    parseBoxes_makeBox (by simp [trunPayload, writeU32_eq]), parseBoxes_nil]
  rfl

theorem parseBoxes_moofPayload (sequenceNumber : UInt32) (decodeTime : UInt64)
    (duration sampleSize : UInt32) (isKeyframe : Bool) :
    parseBoxes (moofPayload sequenceNumber decodeTime duration sampleSize isKeyframe) =
      some [⟨FourCc.bytes ⟨'m', 'f', 'h', 'd'⟩, fullPayload 0 0 (writeU32 sequenceNumber)⟩,
        ⟨FourCc.bytes ⟨'t', 'r', 'a', 'f'⟩,
          trafPayload decodeTime duration sampleSize isKeyframe⟩] := by
  rw [moofPayload, parseBoxes_makeBox (by simp [writeU32_eq]),
    parseBoxes_makeBox (by simp [length_trafPayload]), parseBoxes_nil]
  rfl

/-- The track run has one sample, its data 108 bytes from the start of the `moof`. -/
theorem parseTrun_trunPayload (duration sampleSize : UInt32) (isKeyframe : Bool) :
    parseTrun (trunPayload duration sampleSize isKeyframe) =
      ⟨some 108, none, [⟨some duration.toNat, some sampleSize.toNat,
        some (if isKeyframe then 0x02000000 else 0x01010000), none⟩]⟩ := by
  set sampleFlags : UInt32 := if isKeyframe then 0x02000000 else 0x01010000 with hflags
  set bs := trunPayload duration sampleSize isKeyframe with hbs
  set ws := [1, 108, duration.toNat, sampleSize.toNat, sampleFlags.toNat] with hws
  have hbytes : bs = (0 :: be 3 0x701) ++ ws.flatMap (be 4) := by
    simp only [hbs, trunPayload, fullPayload, writeU24_eq, writeU32_eq, hws, List.flatMap_cons,
      List.flatMap_nil, List.append_assoc, List.append_nil, List.cons_append, hflags]
    rfl
  have hlt : ∀ w ∈ ws, w < 2 ^ 32 := by
    simpa [hws] using ⟨duration.toNat_lt, sampleSize.toNat_lt, sampleFlags.toNat_lt⟩
  have hword : ∀ i (hi : i < 5), field bs (4 + 4 * i) 4 = ws[i] := fun i hi => by
    rw [hbytes]
    exact field_words hlt (0 :: be 3 0x701) hi
  have hdeclared : field bs 1 3 = 0x701 := by
    rw [hbytes]
    exact field_be [0] rfl (by decide)
  have hcount : field bs 4 4 = 1 := hword 0 (by decide)
  -- data offset, duration, size and flags are there; the other two fields are not
  have hbits : Nat.testBit 0x701 0 = true ∧ Nat.testBit 0x701 2 = false ∧
      Nat.testBit 0x701 8 = true ∧ Nat.testBit 0x701 9 = true ∧ Nat.testBit 0x701 10 = true ∧
      Nat.testBit 0x701 11 = false := by decide
  obtain ⟨b0, b2, b8, b9, b10, b11⟩ := hbits
  have hflag : sampleFlags.toNat = if isKeyframe then 0x02000000 else 0x01010000 := by
    rw [hflags]
    cases isKeyframe <;> rfl
  simp only [parseTrun, hdeclared, hcount, parseSamples, optionalField, b0, b2, b8, b9, b10, b11,
    if_true, Bool.false_eq_true, if_false]
  rw [show field bs 8 4 = 108 from hword 1 (by decide),
    show field bs (8 + 4) 4 = duration.toNat from hword 2 (by decide),
    show field bs (8 + 4 + 4) 4 = sampleSize.toNat from hword 3 (by decide),
    show field bs (8 + 4 + 4 + 4) 4 = sampleFlags.toNat from hword 4 (by decide), hflag]

/-- The sample is read back as the frame's units but for the parameter sets. -/
theorem splitLengths_annexBToMp4 {data : List UInt8} {codec : CodecType}
    (hfits : (annexBToMp4 data codec).length < 2 ^ 32) :
    splitLengths (annexBToMp4 data codec) =
      some ((sampleUnits data codec).map (·.bytes data)) := by
  refine splitLengths_lengthPrefixed (fun unit hunit => ?_) hfits
  rw [parseAnnexB_eq] at hunit
  exact length_bytes_of_mem (fun _ => rfl) hunit

section RoundTrip

variable (data : List UInt8) (codec : CodecType) (decodeTime : UInt64)
  (duration sequenceNumber : UInt32) (isKeyframe : Bool)

/-- There is a segment exactly when there is something to put in it. -/
theorem makeMediaSegment_eq_nil_iff :
    makeMediaSegment data decodeTime duration sequenceNumber isKeyframe codec = [] ↔
      sampleUnits data codec = [] := by
  have hcopy : annexBToMp4 data codec = [] ↔ sampleUnits data codec = [] :=
    lengthPrefixed_eq_nil_iff
  by_cases e : annexBToMp4 data codec = []
  · simp [makeMediaSegment, e, hcopy.mp e]
  · simp [makeMediaSegment, e, mt hcopy.mpr e, writeU32]

theorem makeMediaSegment_eq (h : annexBToMp4 data codec ≠ []) :
    makeMediaSegment data decodeTime duration sequenceNumber isKeyframe codec =
      makeBox ⟨'m', 'o', 'o', 'f'⟩ (moofPayload sequenceNumber decodeTime duration
        (UInt32.ofNat (annexBToMp4 data codec).length) isKeyframe) ++
      (makeBox ⟨'m', 'd', 'a', 't'⟩ (annexBToMp4 data codec) ++ []) := by
  simp only [makeMediaSegment, if_neg h, makeMoof_eq, List.append_nil]
  simp only [moofPayload, trafPayload, List.append_nil, ← List.append_assoc]
  rfl

/-- **A media segment is what a reader expects.**  It is a `moof` and an `mdat`, the `moof` holds
`mfhd` and `traf`, the `traf` holds `tfhd`, `tfdt` and `trun`, and every size says where its box
ends; the numbers are the ones given; the one sample begins where the data offset says, counted
from the `moof`, and is the whole of the `mdat`; and its length prefixes cut it into the frame's
units but for the parameter sets.  Empty is only the segment of a frame without such units. -/
theorem makeMediaSegment_roundTrip
    (hfits : 8 + (annexBToMp4 data codec).length < 2 ^ 32) :
    let segment := makeMediaSegment data decodeTime duration sequenceNumber isKeyframe codec
    (segment = [] ↔ sampleUnits data codec = []) ∧
      (segment ≠ [] → ∃ moof mfhd traf tfhd tfdt trun mdat : List UInt8,
        parseBoxes segment = some [⟨FourCc.bytes ⟨'m', 'o', 'o', 'f'⟩, moof⟩,
          ⟨FourCc.bytes ⟨'m', 'd', 'a', 't'⟩, mdat⟩] ∧
        parseBoxes moof = some [⟨FourCc.bytes ⟨'m', 'f', 'h', 'd'⟩, mfhd⟩,
          ⟨FourCc.bytes ⟨'t', 'r', 'a', 'f'⟩, traf⟩] ∧
        parseBoxes traf = some [⟨FourCc.bytes ⟨'t', 'f', 'h', 'd'⟩, tfhd⟩,
          ⟨FourCc.bytes ⟨'t', 'f', 'd', 't'⟩, tfdt⟩, ⟨FourCc.bytes ⟨'t', 'r', 'u', 'n'⟩, trun⟩] ∧
        field mfhd 4 4 = sequenceNumber.toNat ∧
        field tfdt 0 1 = 1 ∧ field tfdt 4 8 = decodeTime.toNat ∧
        (∃ dataOffset flags, parseTrun trun =
            ⟨some dataOffset, none, [⟨some duration.toNat, some mdat.length, some flags, none⟩]⟩ ∧
          segment.length = dataOffset + mdat.length ∧ segment.drop dataOffset = mdat) ∧
        splitLengths mdat = some ((sampleUnits data codec).map (·.bytes data))) := by
  intro segment
  refine ⟨makeMediaSegment_eq_nil_iff data codec decodeTime duration sequenceNumber isKeyframe,
    fun hne => ?_⟩
  have hsplit : splitLengths (annexBToMp4 data codec) = _ := splitLengths_annexBToMp4 (by omega)
  set mdat := annexBToMp4 data codec with hmdat
  set sampleSize := UInt32.ofNat mdat.length with hsampleSize
  have hmdat_ne : mdat ≠ [] := by
    intro e
    exact hne (if_pos e)
  have hsize : sampleSize.toNat = mdat.length := by
    rw [hsampleSize, UInt32.toNat_ofNat', Nat.mod_eq_of_lt (by omega)]
  have hlen := length_moofPayload sequenceNumber decodeTime duration sampleSize isKeyframe
  have hsegment : segment =
      makeBox ⟨'m', 'o', 'o', 'f'⟩
        (moofPayload sequenceNumber decodeTime duration sampleSize isKeyframe) ++
      (makeBox ⟨'m', 'd', 'a', 't'⟩ mdat ++ []) :=
    makeMediaSegment_eq data codec decodeTime duration sequenceNumber isKeyframe hmdat_ne
  -- the mdat's payload lies behind moof (100 bytes) and its own header
  have hdrop : segment.drop 108 = mdat := by
    rw [hsegment, List.append_nil, makeBox_eq hfits, ← List.append_assoc, ← List.append_assoc]
    exact List.drop_left' (by simp [hlen])
  refine ⟨_, _, _, _, _, _, mdat, ?_,
    parseBoxes_moofPayload sequenceNumber decodeTime duration sampleSize isKeyframe,
    parseBoxes_trafPayload decodeTime duration sampleSize isKeyframe, ?_, ?_, ?_,
    ⟨108, if isKeyframe then 0x02000000 else 0x01010000, ?_, ?_, hdrop⟩,
    hsplit⟩
  · rw [hsegment, parseBoxes_makeBox (by omega), parseBoxes_makeBox hfits, parseBoxes_nil]
    rfl
  · rw [writeU32_eq]
    exact field_fullPayload 0 0 sequenceNumber.toNat_lt
  · rfl
  · rw [writeU64_eq]
    exact field_fullPayload 1 0 decodeTime.toNat_lt
  · rw [parseTrun_trunPayload, hsize]
  · simp only [hsegment, List.length_append, length_makeBox, hlen, List.length_nil]
    omega

end RoundTrip

/-- A keyframe of H.264 with an SPS, a PPS and one slice: the slice is the sample. -/
theorem makeMediaSegment_keyframe :
    let data : List UInt8 := [0, 0, 0, 1, 0x67, 0x42, 0, 0, 1, 0x68, 0xCE, 0, 0, 1, 0x65, 0x88]
    let segment := makeMediaSegment data 3000 3000 7 true .h264
    segment ≠ [] ∧ ∃ moof mdat : List UInt8,
      parseBoxes segment = some [⟨FourCc.bytes ⟨'m', 'o', 'o', 'f'⟩, moof⟩,
        ⟨FourCc.bytes ⟨'m', 'd', 'a', 't'⟩, mdat⟩] ∧
      splitLengths mdat = some [[0x65, 0x88]] := by
  intro data segment
  have hunits : (sampleUnits data .h264).map (·.bytes data) = [[0x65, 0x88]] := by decide +kernel
  obtain ⟨hempty, hsome⟩ :=
    makeMediaSegment_roundTrip data .h264 3000 3000 7 true (by decide +kernel)
  have hne : segment ≠ [] := by
    intro e
    rw [hempty.mp e] at hunits
    exact absurd hunits (by decide)
  obtain ⟨moof, _, _, _, _, _, mdat, hboxes, _, _, _, _, _, _, hsplit⟩ := hsome hne
  exact ⟨hne, moof, mdat, hboxes, by rw [hsplit, hunits]⟩

end Fmp4Muxer

end LoongNvr.Network
