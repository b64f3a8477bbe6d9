import LoongNvr.Support.Buffer

/-!
# Support — DecoderRecord

The reader's side of the records that describe an H.264 or H.265 decoder in a container: the
profile, and the parameter sets, each behind its length in two bytes.

* `readSets`: strings behind their lengths; `readSets_cons` reads back what was written.
* `length_lt_of_readSets`: whatever is read so is shorter than 2^16 bytes.
* `readAvc`: an AVCDecoderConfigurationRecord; what follows the sets is its extension.
* `readProfile`: the general part of profile_tier_level; `readProfile_eq_iff` says when two byte
  strings have the same.
* `readHevc`: an HEVCDecoderConfigurationRecord.
-/

namespace DecoderRecord
open Support

/-- The next strings, each behind its length, and what follows them. -/
def readSets : ℕ → List UInt8 → Option (List (List UInt8) × List UInt8)
  | 0, bs => some ([], bs)
  | n + 1, bs =>
      if 2 ≤ bs.length ∧ 2 + field bs 0 2 ≤ bs.length then
        (readSets n (bs.drop (2 + field bs 0 2))).map fun read =>
          ((bs.drop 2).take (field bs 0 2) :: read.1, read.2)
      else none

/-- An AVCDecoderConfigurationRecord. -/
structure AvcConfig where
  profile : UInt8
  compatibility : UInt8
  level : UInt8
  /-- The bytes in front of a unit that hold its length. -/
  lengthSize : ℕ
  sps : List (List UInt8)
  pps : List (List UInt8)
  ext : List UInt8
  deriving DecidableEq, Repr

def readAvc : List UInt8 → Option AvcConfig
  | version :: profile :: compatibility :: level :: lengthSize :: spsCount :: bs =>
      if version = 1 then
        match readSets (spsCount &&& 0x1F).toNat bs with
        | some (sps, ppsCount :: bs) =>
            (readSets ppsCount.toNat bs).map fun read =>
              { profile := profile
                compatibility := compatibility
                level := level
                lengthSize := (lengthSize &&& 3).toNat + 1
                sps := sps
                pps := read.1
                ext := read.2 }
        | _ => none
      else none
  | _ => none

/-- The general part of a profile_tier_level. -/
structure ProfileTierLevel where
  space : UInt8
  tier : UInt8
  idc : UInt8
  compatibility : List UInt8
  constraints : List UInt8
  level : UInt8
  deriving DecidableEq, Repr

/-- Eleven bytes of flags, and the level. -/
def readProfile (bs : List UInt8) : Option ProfileTierLevel :=
  if 12 ≤ bs.length then
    some
      { space := bs.getD 0 0 >>> 6
        tier := bs.getD 0 0 >>> 5 &&& 1
        idc := bs.getD 0 0 &&& 0x1F
        compatibility := (bs.drop 1).take 4
        constraints := (bs.drop 5).take 6
        level := bs.getD 11 0 }
  else none

/-- Arrays of parameter sets, each of one NAL unit type, that fill the byte string. -/
def readArrays : ℕ → List UInt8 → Option (List (UInt8 × List (List UInt8)))
  | 0, bs => if bs = [] then some [] else none
  | n + 1, type :: high :: low :: bs =>
      (readSets (beNat [high, low]) bs).bind fun read =>
        (readArrays n read.2).map ((type &&& 0x3F, read.1) :: ·)
  | _ + 1, _ => none

/-- An HEVCDecoderConfigurationRecord. -/
structure HevcConfig where
  profile : ProfileTierLevel
  /-- The bytes in front of a unit that hold its length. -/
  lengthSize : ℕ
  arrays : List (UInt8 × List (List UInt8))
  deriving DecidableEq, Repr

/-- Behind the version and the profile stand nine bytes about the pictures; then the size of the
lengths, and the arrays. -/
def readHevc (bs : List UInt8) : Option HevcConfig :=
  if 23 ≤ bs.length ∧ bs.getD 0 0 = 1 then do
    let profile ← readProfile (bs.drop 1)
    let arrays ← readArrays (bs.getD 22 0).toNat (bs.drop 23)
    return { profile := profile, lengthSize := (bs.getD 21 0 &&& 3).toNat + 1, arrays := arrays }
  else none

/-! ### Reading back -/

/-- **A string behind its length is read back**, whatever follows it, if the length fits. -/
theorem readSets_cons {n : ℕ} {set rest : List UInt8} (h : set.length < 2 ^ 16) :
    readSets (n + 1) (be 2 set.length ++ (set ++ rest)) =
      (readSets n rest).map fun read => (set :: read.1, read.2) := by
  set bs := be 2 set.length ++ (set ++ rest) with hbs
  have hlen : bs.length = 2 + set.length + rest.length := by
    simp only [hbs, List.length_append, length_be]
    omega
  have hsize : field bs 0 2 = set.length := by
    rw [hbs]
    exact field_be [] rfl h
  have hbody : bs.drop 2 = set ++ rest := by rw [hbs, List.drop_left' (length_be 2 _)]
  have hrest : bs.drop (2 + set.length) = rest := by
    rw [← List.drop_drop, hbody, List.drop_left]
  rw [readSets, hsize, if_pos ⟨by omega, by omega⟩, hrest, hbody, List.take_left]

/-- Whatever is read is shorter than its length field can say. -/
theorem length_lt_of_readSets {n : ℕ} {bs rest : List UInt8} {sets : List (List UInt8)}
    (h : readSets n bs = some (sets, rest)) : ∀ set ∈ sets, set.length < 2 ^ 16 := by
  induction n generalizing bs sets with
  | zero =>
      obtain ⟨rfl, -⟩ := Prod.mk.inj (Option.some.inj h)
      simp
  | succ n ih =>
      rw [readSets] at h
      split at h
      · obtain ⟨⟨sets', rest'⟩, hread, heq⟩ := Option.map_eq_some_iff.mp h
        obtain ⟨rfl, rfl⟩ := Prod.mk.inj heq
        intro set hset
        rcases List.mem_cons.mp hset with rfl | hset
        · exact lt_of_le_of_lt (List.length_take_le _ _) (field_lt bs 0 2)
        · exact ih hread set hset
      · cases h

/-- One SPS and one PPS are read back, if their lengths fit. -/
theorem readAvc_single {profile compatibility level : UInt8} {sps pps ext : List UInt8}
    (hsps : sps.length < 2 ^ 16) (hpps : pps.length < 2 ^ 16) :
    readAvc ([1, profile, compatibility, level, 0xFF, 0xE1] ++ (be 2 sps.length ++ (sps ++
        (1 :: (be 2 pps.length ++ (pps ++ ext)))))) =
      some
        { profile := profile
          compatibility := compatibility
          level := level
          lengthSize := 4
          sps := [sps]
          pps := [pps]
          ext := ext } := by
  have hone : ∀ (set rest : List UInt8), set.length < 2 ^ 16 →
      readSets 1 (be 2 set.length ++ (set ++ rest)) = some ([set], rest) := fun set rest h => by
    rw [readSets_cons h]
    rfl
  have hcount : ((0xE1 : UInt8) &&& 0x1F).toNat = 1 := by decide
  have hsize : ((0xFF : UInt8) &&& 3).toNat + 1 = 4 := by decide
  simp only [List.cons_append, List.nil_append, readAvc, if_true, hcount, hone _ _ hsps]
  have hppsCount : (1 : UInt8).toNat = 1 := by decide
  rw [hppsCount, hone _ _ hpps, Option.map_some, hsize]

/-- The sets of a record are shorter than 2^16 bytes. -/
theorem length_lt_of_readAvc {bs : List UInt8} {config : AvcConfig}
    (h : readAvc bs = some config) :
    (∀ set ∈ config.sps, set.length < 2 ^ 16) ∧ ∀ set ∈ config.pps, set.length < 2 ^ 16 := by
  unfold readAvc at h
  split at h
  · split at h
    · split at h
      · next sps count rest hsps =>
          obtain ⟨⟨pps, ext⟩, hpps, rfl⟩ := Option.map_eq_some_iff.mp h
          exact ⟨length_lt_of_readSets hsps, length_lt_of_readSets hpps⟩
      · cases h
    · cases h
  · cases h

/-- An array of one parameter set is read back, if its length fits. -/
theorem readArrays_cons {n : ℕ} {type : UInt8} {set rest : List UInt8} (h : set.length < 2 ^ 16) :
    readArrays (n + 1) (type :: (be 2 1 ++ (be 2 set.length ++ (set ++ rest)))) =
      (readArrays n rest).map ((type &&& 0x3F, [set]) :: ·) := by
  have hone : beNat [0, 1] = 1 := rfl
  have hcount : be 2 1 = [0, 1] := rfl
  rw [hcount, List.cons_append, List.cons_append, List.nil_append, readArrays, hone,
    readSets_cons h]
  rfl

/-- A byte by its fields of two, one and five bits. -/
theorem toNat_fields (b : UInt8) :
    b.toNat = (b >>> 6).toNat * 64 + (b >>> 5 &&& 1).toNat * 32 + (b &&& 0x1F).toNat := by
  have hone : ∀ n : ℕ, n &&& 1 = n % 2 := fun n => Nat.and_two_pow_sub_one_eq_mod n 1
  have hlow : ∀ n : ℕ, n &&& 31 = n % 32 := fun n => Nat.and_two_pow_sub_one_eq_mod n 5
  have hb := b.toNat_lt
  simp only [UInt8.toNat_shiftRight, UInt8.toNat_and, UInt8.reduceToNat, Nat.reduceMod,
    Nat.shiftRight_eq_div_pow, Nat.reducePow, hone, hlow]
  omega

theorem eq_of_fields_eq {b c : UInt8} (hspace : b >>> 6 = c >>> 6)
    (htier : b >>> 5 &&& (1 : UInt8) = c >>> 5 &&& 1) (hidc : b &&& 0x1F = c &&& 0x1F) :
    b = c := by
  apply UInt8.toNat_inj.mp
  rw [toNat_fields b, toNat_fields c, hspace, htier, hidc]

/-- **The profile is twelve bytes**: two byte strings have the same one exactly when they begin
alike. -/
theorem readProfile_eq_iff {bs cs : List UInt8} (hb : 12 ≤ bs.length) (hc : 12 ≤ cs.length) :
    readProfile bs = readProfile cs ↔ bs.take 12 = cs.take 12 := by
  have hsplit : ∀ {ds : List UInt8}, 12 ≤ ds.length → ds.take 12 =
      ds.getD 0 0 :: ((ds.drop 1).take 4 ++ ((ds.drop 5).take 6 ++ [ds.getD 11 0])) := by
    intro ds hd
    match ds, hd with
    | _ :: _ :: _ :: _ :: _ :: _ :: _ :: _ :: _ :: _ :: _ :: _ :: _, _ => rfl
  have hfour : ∀ {ds : List UInt8}, 12 ≤ ds.length → ((ds.drop 1).take 4).length = 4 := by
    intro ds hd
    simp only [List.length_take, List.length_drop]
    omega
  have hsix : ∀ {ds : List UInt8}, 12 ≤ ds.length → ((ds.drop 5).take 6).length = 6 := by
    intro ds hd
    simp only [List.length_take, List.length_drop]
    omega
  rw [readProfile, readProfile, if_pos hb, if_pos hc, hsplit hb, hsplit hc, Option.some.injEq,
    ProfileTierLevel.mk.injEq, List.cons.injEq]
  constructor
  · rintro ⟨hspace, htier, hidc, hcompatibility, hconstraints, hlevel⟩
    exact ⟨eq_of_fields_eq hspace htier hidc, by rw [hcompatibility, hconstraints, hlevel]⟩
  · rintro ⟨hhead, hrest⟩
    obtain ⟨hcompatibility, hrest⟩ := List.append_inj hrest ((hfour hb).trans (hfour hc).symm)
    obtain ⟨hconstraints, hlevel⟩ := List.append_inj hrest ((hsix hb).trans (hsix hc).symm)
    rw [hhead]
    exact ⟨rfl, rfl, rfl, hcompatibility, hconstraints, (List.cons.inj hlevel).1⟩

end DecoderRecord
