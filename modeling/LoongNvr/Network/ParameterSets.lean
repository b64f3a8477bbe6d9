import LoongNvr.Network.FlvMuxer
import LoongNvr.Network.Fmp4Muxer

/-!
# Network — ParameterSets

How `ExtractH264Params`, `ExtractH265Params` and `ExtractSpsPps` look for the first parameter set
of each kind, and what they and the two `ParseAnnexB` find in a stream of NAL units.

* `extractLoop_eq`: each kind has the first unit of it, if there is one.
* `extractH264Params_eq`, `extractH265Params_eq`, `extractSpsPps_eq`: the loops say what the
  extractions are elsewhere taken to return.
* `annexB_undone`: parsing a stream gives the units that were put in it.
-/

namespace LoongNvr.Network
open AnnexB

/-! ### The loop over the units -/

/-- An out-parameter of an extraction, the kind of parameter set it is for, and its `found_`
flag. -/
structure Wanted where
  kind : UInt8
  out : List UInt8
  found : Bool := false
  deriving DecidableEq, Repr

/-- The `if … else if` of one turn, for a unit of this type and these bytes. -/
def assign (nalType : UInt8) (bytes : List UInt8) : List Wanted → List Wanted
  | [] => []
  | w :: ws =>
      if nalType == w.kind && !w.found then { w with out := bytes, found := true } :: ws
      else w :: assign nalType bytes ws

/-- The loop, which breaks off when every kind has been found. -/
def extractLoop (nalType : NalUnit → UInt8) (data : List UInt8) :
    List NalUnit → List Wanted → List Wanted
  | [], ws => ws
  | unit :: units, ws =>
      let assigned := assign (nalType unit) (unit.bytes data) ws
      if assigned.all (·.found) then assigned else extractLoop nalType data units assigned

/-- What an extraction returns. -/
def success (ws : List Wanted) : Bool := ws.all (·.found)

/-- `Fmp4Muxer::ExtractH264Params`, with what its out-parameters hold before. -/
def Fmp4Muxer.scanH264Params (data sps pps : List UInt8) : List Wanted :=
  extractLoop (h264NalType ·.type) data (parseAnnexB data) [⟨7, sps, false⟩, ⟨8, pps, false⟩]

/-- `Fmp4Muxer::ExtractH265Params`, with what its out-parameters hold before. -/
def Fmp4Muxer.scanH265Params (data vps sps pps : List UInt8) : List Wanted :=
  extractLoop (h265NalType ·.type) data (parseAnnexB data)
    [⟨32, vps, false⟩, ⟨33, sps, false⟩, ⟨34, pps, false⟩]

/-- `FlvMuxer::ExtractSpsPps`, with what its out-parameters hold before. -/
def FlvMuxer.scanSpsPps (data sps pps : List UInt8) : List Wanted :=
  extractLoop (·.type) data (parseAnnexB data)
    [⟨kNalTypeSps, sps, false⟩, ⟨kNalTypePps, pps, false⟩]

section Loop

variable {nalType : NalUnit → UInt8} {data : List UInt8}

/-- The first unit of its kind is in the out-parameter, unless one has been found before. -/
def Wanted.settled (nalType : NalUnit → UInt8) (data : List UInt8) (units : List NalUnit)
    (w : Wanted) : Wanted :=
  match units.find? (nalType · == w.kind) with
  | some unit => if w.found then w else { w with out := unit.bytes data, found := true }
  | none => w

theorem settled_kind (units : List NalUnit) (w : Wanted) :
    (w.settled nalType data units).kind = w.kind := by
  rw [Wanted.settled]
  split
  · split <;> rfl
  · rfl

theorem settled_of_found {units : List NalUnit} {w : Wanted} (h : w.found = true) :
    w.settled nalType data units = w := by
  rw [Wanted.settled]
  split
  · exact if_pos h
  · rfl

theorem settled_nil (w : Wanted) : w.settled nalType data [] = w := by
  rw [Wanted.settled, List.find?_nil]

theorem settled_one_of_ne {unit : NalUnit} {w : Wanted} (h : nalType unit ≠ w.kind) :
    w.settled nalType data [unit] = w := by
  have hnone : [unit].find? (nalType · == w.kind) = none := by simpa using h
  rw [Wanted.settled, hnone]

/-- One unit, then the others. -/
theorem settled_cons (unit : NalUnit) (units : List NalUnit) (w : Wanted) :
    w.settled nalType data (unit :: units) =
      (w.settled nalType data [unit]).settled nalType data units := by
  cases hfound : w.found with
  | true => simp only [settled_of_found hfound]
  | false =>
      by_cases e : nalType unit = w.kind
      · have hone : ∀ rest, w.settled nalType data (unit :: rest) =
            { w with out := unit.bytes data, found := true } := by
          intro rest
          rw [Wanted.settled, List.find?_cons_of_pos (by simpa using e)]
          exact if_neg (by simp [hfound])
        rw [hone, hone, settled_of_found rfl]
      · rw [settled_one_of_ne e, Wanted.settled, Wanted.settled,
          List.find?_cons_of_neg (by simpa using e)]

/-- When the kinds are different, a turn settles each of them for itself. -/
theorem assign_eq {ws : List Wanted} (h : (ws.map (·.kind)).Nodup) (unit : NalUnit) :
    assign (nalType unit) (unit.bytes data) ws = ws.map (·.settled nalType data [unit]) := by
  induction ws with
  | nil => rfl
  | cons w ws ih =>
      obtain ⟨hw, hws⟩ := List.nodup_cons.mp h
      rw [assign, List.map_cons]
      by_cases e : (nalType unit == w.kind && !w.found) = true
      · obtain ⟨hkind, hfound⟩ : nalType unit = w.kind ∧ w.found = false := by simpa using e
        -- the kinds after it are others, and keep what they have
        have hrest : ws.map (·.settled nalType data [unit]) = ws.map id := by
          refine List.map_congr_left fun w' hw' => settled_one_of_ne fun hsame => hw ?_
          exact List.mem_map.mpr ⟨w', hw', hsame.symm.trans hkind⟩
        rw [if_pos e, hrest, List.map_id, Wanted.settled,
          List.find?_cons_of_pos (by simpa using hkind)]
        simp [hfound]
      · have hkeep : w.settled nalType data [unit] = w := by
          cases hfound : w.found with
          | true => exact settled_of_found hfound
          | false => exact settled_one_of_ne (by simpa [hfound] using e)
        rw [if_neg e, ih hws, hkeep]

/-- **Each kind has the first unit of it**; breaking off early makes no difference. -/
theorem extractLoop_eq (units : List NalUnit) {ws : List Wanted}
    (h : (ws.map (·.kind)).Nodup) :
    extractLoop nalType data units ws = ws.map (·.settled nalType data units) := by
  induction units generalizing ws with
  | nil =>
      rw [extractLoop, List.map_congr_left fun w _ => settled_nil w, List.map_id']
  | cons unit units ih =>
      have hcons : ws.map (·.settled nalType data (unit :: units)) =
          (ws.map (·.settled nalType data [unit])).map (·.settled nalType data units) := by
        rw [List.map_map]
        exact List.map_congr_left fun w _ => settled_cons unit units w
      simp only [extractLoop, assign_eq h]
      rw [hcons]
      by_cases e : (ws.map (·.settled nalType data [unit])).all (·.found) = true
      · have hdone : (ws.map (·.settled nalType data [unit])).map (·.settled nalType data units) =
            (ws.map (·.settled nalType data [unit])).map id :=
          List.map_congr_left fun w hw => settled_of_found (List.all_eq_true.mp e w hw)
        rw [if_pos e, hdone, List.map_id]
      · rw [if_neg e]
        have hkinds : (ws.map (·.settled nalType data [unit])).map (·.kind) =
            ws.map (·.kind) := by
          rw [List.map_map]
          exact List.map_congr_left fun w _ => settled_kind [unit] w
        exact ih (hkinds ▸ h)

end Loop

/-! ### Streams of units -/

/-- The units of a buffer as bytes, each with its type. -/
def typedUnits (data : List UInt8) (units : List NalUnit) : List (List UInt8 × UInt8) :=
  units.map fun unit => (unit.bytes data, unit.type)

/-- What an extraction from the stream leaves in the out-parameter for a kind of parameter set: the
first unit of the kind, or what was there. -/
def firstOf (typeOf : UInt8 → UInt8) (us : List StreamUnit) (kind : UInt8) (out : List UInt8) :
    Wanted :=
  match us.find? (typeOf ·.nal.header == kind) with
  | some u => ⟨kind, u.nal.bytes, true⟩
  | none => ⟨kind, out, false⟩

variable {typeOf kindOf : UInt8 → UInt8} {us : List StreamUnit}

/-- Units found where they lie have the bytes and the first bytes of the units put there. -/
theorem typedUnits_map {unitOf : ℕ × ℕ → NalUnit} (hrange : ∀ range, (unitOf range).range = range)
    (htype : ∀ range, (unitOf range).type = typeOf ((serialise us).getD range.1 0)) :
    typedUnits (serialise us) ((nalRanges (serialise us)).map unitOf) =
      us.map fun u => (u.nal.bytes, typeOf u.nal.header) := by
  have hbytes : (typedUnits (serialise us) ((offsets 0 us).map unitOf)).map Prod.fst =
      us.map (·.nal.bytes) := by
    have h := map_bytesAt_offsets [] us
    rw [List.nil_append, List.length_nil] at h
    rw [← h, typedUnits, List.map_map, List.map_map]
    exact List.map_congr_left fun range _ => congrArg (bytesAt _) (hrange range)
  have htypes : (typedUnits (serialise us) ((offsets 0 us).map unitOf)).map Prod.snd =
      us.map fun u => typeOf u.nal.header := by
    have h := congrArg (List.map typeOf) (map_getD_offsets us)
    rw [List.map_map, List.map_map] at h
    rw [typedUnits, List.map_map, List.map_map]
    exact (List.map_congr_left fun range _ => htype range).trans h
  rw [nalRanges_serialise, List.zip_of_prod hbytes htypes]
  exact (List.zip_of_prod (by rw [List.map_map]; rfl) (by rw [List.map_map]; rfl)).symm

theorem Fmp4Muxer.typedUnits_serialise (us : List StreamUnit) :
    typedUnits (serialise us) (Fmp4Muxer.parseAnnexB (serialise us)) =
      us.map fun u => (u.nal.bytes, u.nal.header) := by
  rw [Fmp4Muxer.parseAnnexB_eq]
  exact @typedUnits_map id us _ (fun _ => rfl) fun _ => UInt8.and_neg_one

theorem FlvMuxer.typedUnits_serialise (us : List StreamUnit) :
    typedUnits (serialise us) (FlvMuxer.parseAnnexB (serialise us)) =
      us.map fun u => (u.nal.bytes, u.nal.header &&& 0x1F) := by
  rw [FlvMuxer.parseAnnexB_eq]
  exact @typedUnits_map (· &&& 0x1F) us _ (fun _ => rfl) fun _ => rfl

/-- What the loop leaves for a kind is settled by the units' bytes and types. -/
theorem settled_eq_firstOf {data : List UInt8} {units : List NalUnit}
    (h : typedUnits data units = us.map fun u => (u.nal.bytes, typeOf u.nal.header))
    (kind : UInt8) (out : List UInt8) :
    Wanted.settled (kindOf ·.type) data units ⟨kind, out, false⟩ =
      firstOf (fun b => kindOf (typeOf b)) us kind out := by
  have hfind := congrArg (List.find? fun pair => kindOf pair.2 == kind) h
  rw [typedUnits, List.find?_map, List.find?_map] at hfind
  have hfirst := congrArg (Option.map Prod.fst) hfind
  rw [Option.map_map, Option.map_map] at hfirst
  simp only [Function.comp_def] at hfirst
  rw [Wanted.settled, firstOf]
  cases hunit : units.find? (kindOf ·.type == kind) with
  | none =>
      rw [hunit, Option.map_none, eq_comm, Option.map_eq_none_iff] at hfirst
      rw [hfirst]
  | some unit =>
      rw [hunit, Option.map_some, eq_comm, Option.map_eq_some_iff] at hfirst
      obtain ⟨u, hu, hbytes⟩ := hfirst
      simp [hu, hbytes]

/-! ### The extractions -/

theorem nodup_h264Kinds : ([7, 8] : List UInt8).Nodup := by decide

theorem nodup_h265Kinds : ([32, 33, 34] : List UInt8).Nodup := by decide

/-- What the callers are taken to get: the out-parameters, if all have been found. -/
theorem Fmp4Muxer.extractH264Params_eq (data sps pps : List UInt8) :
    ∃ s p, scanH264Params data sps pps = [s, p] ∧ extractH264Params data =
      if success [s, p] then some (s.out, p.out) else none := by
  refine ⟨_, _, extractLoop_eq (parseAnnexB data) nodup_h264Kinds, ?_⟩
  simp only [Wanted.settled, extractH264Params, success]
  cases (parseAnnexB data).find? (h264NalType ·.type == 7) with
  | none => rfl
  | some s => cases (parseAnnexB data).find? (h264NalType ·.type == 8) <;> rfl

theorem Fmp4Muxer.extractH265Params_eq (data vps sps pps : List UInt8) :
    ∃ v s p, scanH265Params data vps sps pps = [v, s, p] ∧ extractH265Params data =
      if success [v, s, p] then some (v.out, s.out, p.out) else none := by
  refine ⟨_, _, _, extractLoop_eq (parseAnnexB data) nodup_h265Kinds, ?_⟩
  simp only [Wanted.settled, extractH265Params, success]
  cases (parseAnnexB data).find? (h265NalType ·.type == 32) with
  | none => rfl
  | some v =>
      cases (parseAnnexB data).find? (h265NalType ·.type == 33) with
      | none => rfl
      | some s => cases (parseAnnexB data).find? (h265NalType ·.type == 34) <;> rfl

theorem FlvMuxer.extractSpsPps_eq (data sps pps : List UInt8) :
    ∃ s p, scanSpsPps data sps pps = [s, p] ∧ extractSpsPps data =
      if success [s, p] then some (s.out, p.out) else none := by
  refine ⟨_, _, extractLoop_eq (parseAnnexB data) nodup_h264Kinds, ?_⟩
  simp only [Wanted.settled, extractSpsPps, success]
  cases (parseAnnexB data).find? (·.type == kNalTypeSps) with
  | none => rfl
  | some s => cases (parseAnnexB data).find? (·.type == kNalTypePps) <;> rfl

/-- The extraction leaves the first unit of each kind in its out-parameter, and succeeds exactly if
there is one of every kind. -/
def Extracts (typeOf : UInt8 → UInt8) (us : List StreamUnit) (before after : List Wanted) : Prop :=
  after = before.map (fun w => firstOf typeOf us w.kind w.out) ∧
    (success after = true ↔ ∀ w ∈ before, ∃ u ∈ us, typeOf u.nal.header = w.kind)

theorem firstOf_found (typeOf : UInt8 → UInt8) (us : List StreamUnit) (kind : UInt8)
    (out : List UInt8) :
    (firstOf typeOf us kind out).found = true ↔ ∃ u ∈ us, typeOf u.nal.header = kind := by
  rw [firstOf]
  cases h : us.find? (typeOf ·.nal.header == kind) with
  | none => simpa using h
  | some u => exact iff_of_true rfl ⟨u, List.mem_of_find?_eq_some h, by
      simpa using List.find?_some h⟩

theorem extracts_extractLoop {data : List UInt8} {units : List NalUnit}
    (h : typedUnits data units = us.map fun u => (u.nal.bytes, typeOf u.nal.header))
    {before : List Wanted} (hkinds : (before.map (·.kind)).Nodup)
    (hfresh : ∀ w ∈ before, w.found = false) :
    Extracts (fun b => kindOf (typeOf b)) us before
      (extractLoop (kindOf ·.type) data units before) := by
  have heq : extractLoop (kindOf ·.type) data units before =
      before.map fun w => firstOf (fun b => kindOf (typeOf b)) us w.kind w.out := by
    rw [extractLoop_eq units hkinds]
    refine List.map_congr_left fun w hw => ?_
    rw [← settled_eq_firstOf h, ← hfresh w hw]
  refine ⟨heq, ?_⟩
  rw [heq, success, List.all_map, List.all_eq_true]
  exact forall₂_congr fun w _ => firstOf_found _ us w.kind w.out

/-- **Annex B parsing undoes serialisation**: both parsers return the units put in the stream, in
order, each with its type, and the extractions the first parameter set of each kind. -/
theorem annexB_undone (us : List StreamUnit) (vps sps pps : List UInt8) :
    let data := serialise us
    typedUnits data (Fmp4Muxer.parseAnnexB data) = us.map (fun u => (u.nal.bytes, u.nal.header)) ∧
      typedUnits data (FlvMuxer.parseAnnexB data) =
        us.map (fun u => (u.nal.bytes, u.nal.header &&& 0x1F)) ∧
      Extracts Fmp4Muxer.h264NalType us [⟨7, sps, false⟩, ⟨8, pps, false⟩]
        (Fmp4Muxer.scanH264Params data sps pps) ∧
      Extracts Fmp4Muxer.h265NalType us [⟨32, vps, false⟩, ⟨33, sps, false⟩, ⟨34, pps, false⟩]
        (Fmp4Muxer.scanH265Params data vps sps pps) ∧
      Extracts (· &&& 0x1F) us [⟨7, sps, false⟩, ⟨8, pps, false⟩]
        (FlvMuxer.scanSpsPps data sps pps) := by
  have hfmp4 := Fmp4Muxer.typedUnits_serialise us
  have hflv := FlvMuxer.typedUnits_serialise us
  refine ⟨hfmp4, hflv, ?_, ?_, ?_⟩
  · exact @extracts_extractLoop id _ us _ _ hfmp4 _ nodup_h264Kinds (by simp)
  · exact @extracts_extractLoop id _ us _ _ hfmp4 _ nodup_h265Kinds (by simp)
  · exact @extracts_extractLoop _ id us _ _ hflv _ nodup_h264Kinds (by simp)

end LoongNvr.Network
