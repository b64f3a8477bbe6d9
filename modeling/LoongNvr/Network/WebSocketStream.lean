import LoongNvr.Network.WebSocketServer
import LoongNvr.Network.WsMediaService

/-!
# Network — WebSocketStream

The frames the builders make, masked or not, through the receive loop in chunks.

* `WireFrame`: a built frame as it goes over the wire.
* `decodes_header`: what the loop makes of a header, a key and a payload.
* `WireFrame.exists_decodes`: it reads as much of a frame as its header declares, which is all of it
  but for a long pong.
* `receives_iff`: frames in chunks are received as sent exactly if no pong is long and every chunk
  finds room.
-/

namespace LoongNvr.Network
open Support WebSocketServer

/-! ### Frames on the wire -/

/-- What a builder is called with. -/
inductive BuiltFrame
  | text (payload : List UInt8)
  | binary (payload : List UInt8)
  | pong (payload : List UInt8)
  | close (code : UInt16)
  deriving DecidableEq, Repr

def BuiltFrame.bytes : BuiltFrame → List UInt8
  | .text payload => buildTextFrame payload
  | .binary payload => WsMediaService.buildWsBinaryFrame payload
  | .pong payload => buildPongFrame payload
  | .close code => buildCloseFrame code

def BuiltFrame.opcode : BuiltFrame → WsOpcode
  | .text _ => .text
  | .binary _ => .binary
  | .pong _ => .pong
  | .close _ => .close

def BuiltFrame.payload : BuiltFrame → List UInt8
  | .text payload | .binary payload | .pong payload => payload
  | .close code => writeU16 code

/-- The mask bit set, the key behind the length and the payload masked with it. -/
def maskFrame (key : List UInt8) : List UInt8 → List UInt8
  | b0 :: b1 :: rest =>
      b0 :: (b1 ||| (0x80 : UInt8)) ::
        (rest.take (lengthEnd b1 - 2) ++ (key ++ unmask key (rest.drop (lengthEnd b1 - 2))))
  | frame => frame

/-- A built frame, masked if there is a key, as a client sends it. -/
structure WireFrame where
  built : BuiltFrame
  key : Option { key : List UInt8 // key.length = 4 } := none
  deriving DecidableEq, Repr

namespace WireFrame

def bytes (frame : WireFrame) : List UInt8 :=
  match frame.key with
  | none => frame.built.bytes
  | some key => maskFrame key.1 frame.built.bytes

/-- What is to be received. -/
def message (frame : WireFrame) : WsOpcode × List UInt8 :=
  (frame.built.opcode, frame.built.payload)

end WireFrame

/-- The messages are received from the chunks, and nothing is left. -/
def Receives (chunks : List (List UInt8)) (messages : List (WsOpcode × List UInt8)) : Prop :=
  ∃ frames rest, readFrames emptyBuffer chunks = .ok (frames, rest) ∧
    frames.map (fun frame => (frame.opcode, frame.payload)) = messages ∧ rest.bytes = []

/-! ### Headers -/

/-- A length field: its first byte, the mask bit aside, and what extends it. -/
structure Declares (b1 : UInt8) (ext : List UInt8) (len : ℕ) : Prop where
  lengthEnd : lengthEnd b1 = ext.length + 2
  declared : ∀ b0 b more, declaredLength (b0 :: b :: (ext ++ more)) b1 = len

/-- The mask bit set leaves the short length. -/
theorem or_mask (b : UInt8) :
    (b ||| 0x80) &&& 0x7F = b &&& 0x7F ∧ ((b ||| 0x80) &&& 0x80 != 0) = true := by
  have hall : ∀ n : Fin 256, let b := UInt8.ofNat n
      (b ||| 0x80) &&& 0x7F = b &&& 0x7F ∧ ((b ||| 0x80) &&& 0x80 != 0) = true := by
    decide +kernel
  simpa using hall b.toFin

theorem Declares.mask {b1 : UInt8} {ext : List UInt8} {len : ℕ} (h : Declares b1 ext len) :
    Declares (b1 ||| 0x80) ext len where
  lengthEnd := by
    have hend := h.lengthEnd
    simp only [Network.lengthEnd, (or_mask b1).1] at hend ⊢
    exact hend
  declared b0 b more := by
    have hdeclared := h.declared b0 b more
    simp only [declaredLength, (or_mask b1).1] at hdeclared ⊢
    exact hdeclared

theorem declares_short {len : ℕ} (h : len < 126) : Declares (UInt8.ofNat len) [] len := by
  have hvalue : (UInt8.ofNat len &&& 0x7F).toNat = len := by
    have hmask : (0x7F : UInt8).toNat = 2 ^ 7 - 1 := rfl
    rw [UInt8.toNat_and, UInt8.toNat_ofNat', hmask, Nat.and_two_pow_sub_one_eq_mod]
    omega
  have hne : ∀ n : UInt8, 126 ≤ n.toNat → UInt8.ofNat len &&& 0x7F ≠ n := by
    rintro n hn rfl
    omega
  have h126 := hne 126 (by decide)
  have h127 := hne 127 (by decide)
  exact ⟨by simp [lengthEnd, h126, h127], fun _ _ _ => by simp [declaredLength, h126, h127, hvalue]⟩

theorem declares_u16 {len : ℕ} (h : len < 65536) : Declares 126 (be 2 len) len where
  lengthEnd := rfl
  declared b0 b more := by
    have hfield : (be 2 len ++ more).take 2 = be 2 len := List.take_left' rfl
    show beNat ((be 2 len ++ more).take 2) = len
    rw [hfield, beNat_be_of_lt h]

theorem declares_u64 {len : ℕ} (h : len < 2 ^ 64) : Declares 127 (be 8 len) len where
  lengthEnd := rfl
  declared b0 b more := by
    have hfield : (be 8 len ++ more).take 8 = be 8 len := List.take_left' rfl
    show beNat ((be 8 len ++ more).take 8) = len
    rw [hfield, beNat_be_of_lt h]

/-! ### One frame -/

/-- What is read of a header, a key and a payload. -/
def readAs (b0 b1 : UInt8) (key payload : List UInt8) : WsFrame where
  fin := b0 &&& 0x80 != 0
  opcode := .ofNibble (b0 &&& 0x0F)
  masked := b1 &&& 0x80 != 0
  maskKey := if b1 &&& 0x80 != 0 then key else [0, 0, 0, 0]
  payload := framePayload (b1 &&& 0x80 != 0) key payload

theorem next_of_zero {buffer : Buffer} {frame : WsFrame}
    (h : parseFrame buffer {} = .ok (0, frame)) : decoder.next buffer.bytes = .ok none := by
  by_cases hempty : buffer.bytes = []
  · rw [hempty, decoder.next_nil]
  · rw [next_eq hempty, h]
    rfl

section Header

variable {b0 b1 : UInt8} {ext key payload : List UInt8}

theorem Declares.headerLength_eq (h : Declares b1 ext payload.length)
    (hkey : key.length = if b1 &&& 0x80 != 0 then 4 else 0) :
    headerLength b1 = ext.length + 2 + key.length := by
  rw [headerLength, h.lengthEnd, hkey]

theorem wholeFrame_eq (h : Declares b1 ext payload.length)
    (hkey : key.length = if b1 &&& 0x80 != 0 then 4 else 0) {data : Buffer} {rest : List UInt8}
    (hdata : data.bytes = b0 :: b1 :: (ext ++ (key ++ (payload ++ rest)))) :
    wholeFrame data {} = readAs b0 b1 key payload := by
  have hfirst : data.bytes.getD 0 0 = b0 := by rw [hdata]; rfl
  have hsecond : secondByte data = b1 := by rw [secondByte, hdata]; rfl
  have hlength : declaredLength data.bytes b1 = payload.length := by
    rw [hdata]
    exact h.declared b0 b1 _
  have hpayload : (data.bytes.drop (headerLength b1)).take payload.length = payload := by
    rw [h.headerLength_eq hkey, hdata, Nat.add_right_comm]
    have hdrop : (ext ++ (key ++ (payload ++ rest))).drop (ext.length + key.length) =
        payload ++ rest := by
      rw [← List.append_assoc]
      exact List.drop_left' (by simp)
    show ((ext ++ (key ++ (payload ++ rest))).drop (ext.length + key.length)).take _ = _
    rw [hdrop, List.take_left]
  have hmaskKey : (if (b1 &&& 0x80 != 0) = true then (data.bytes.drop (lengthEnd b1)).take 4
      else [0, 0, 0, 0]) = if (b1 &&& 0x80 != 0) = true then key else [0, 0, 0, 0] := by
    split
    · rename_i hmasked
      rw [if_pos hmasked] at hkey
      rw [h.lengthEnd, hdata]
      show ((ext ++ (key ++ (payload ++ rest))).drop ext.length).take 4 = key
      rw [List.drop_left, ← hkey, List.take_left]
    · rfl
  have hunmasked : framePayload (b1 &&& 0x80 != 0)
      (if (b1 &&& 0x80 != 0) = true then key else [0, 0, 0, 0]) payload =
        framePayload (b1 &&& 0x80 != 0) key payload := by
    simp only [framePayload]
    split
    · rfl
    · rfl
  simp only [wholeFrame, headerFrame, fixedFrame, readAs, hfirst, hsecond, hlength, hpayload,
    hmaskKey, hunmasked]

/-- With the header there, the end it declares is the frame's. -/
theorem declaredEnd_eq (h : Declares b1 ext payload.length)
    (hkey : key.length = if b1 &&& 0x80 != 0 then 4 else 0) {data : Buffer} {more : List UInt8}
    (hdata : data.bytes = b0 :: b1 :: (ext ++ more)) :
    declaredEnd data = (b0 :: b1 :: (ext ++ (key ++ payload))).length := by
  have hsecond : secondByte data = b1 := by rw [secondByte, hdata]; rfl
  rw [declaredEnd, hsecond, hdata, h.declared b0 b1 more, h.headerLength_eq hkey]
  simp only [List.length_cons, List.length_append]
  omega

/-- A part of a frame that has all of the header. -/
theorem bytes_of_headerComplete (h : Declares b1 ext payload.length)
    (hkey : key.length = if b1 &&& 0x80 != 0 then 4 else 0) {data : Buffer}
    (hpart : data.bytes <+: b0 :: b1 :: (ext ++ (key ++ payload))) (hcomplete : HeaderComplete data) :
    ∃ more, data.bytes = b0 :: b1 :: (ext ++ more) := by
  obtain ⟨rest, hrest⟩ := hpart
  have htwo := hcomplete.1
  match hdata : data.bytes with
  | [] | [_] => simp [hdata] at htwo
  | x :: y :: tail =>
      rw [hdata, List.cons_append, List.cons_append, List.cons.injEq, List.cons.injEq] at hrest
      obtain ⟨rfl, rfl, htail⟩ := hrest
      have hsecond : secondByte data = y := by rw [secondByte, hdata]; rfl
      have hheader := hcomplete.2
      rw [hsecond, h.headerLength_eq hkey, hdata, List.length_cons, List.length_cons] at hheader
      have hext : ext <+: tail := List.prefix_of_prefix_length_le (List.prefix_append ext _)
        ⟨rest, htail⟩ (by omega)
      obtain ⟨more, rfl⟩ := hext
      exact ⟨more, rfl⟩

/-- **A header, a key and a payload** of the length declared are read as one frame, and not before
they are there. -/
theorem decodes_header (h : Declares b1 ext payload.length)
    (hkey : key.length = if b1 &&& 0x80 != 0 then 4 else 0) (hlen : payload.length < 2 ^ 63) :
    Decodes decoder ptrdiffMax
      (b0 :: b1 :: (ext ++ (key ++ payload)), readAs b0 b1 key payload) where
  complete rest hfits := by
    have hbytes : b0 :: b1 :: (ext ++ (key ++ payload)) ++ rest =
        b0 :: b1 :: (ext ++ (key ++ (payload ++ rest))) := by simp
    rw [hbytes] at hfits ⊢
    obtain ⟨data, hdata⟩ : ∃ data : Buffer,
        data.bytes = b0 :: b1 :: (ext ++ (key ++ (payload ++ rest))) := ⟨⟨_, hfits⟩, rfl⟩
    have hend := declaredEnd_eq h hkey hdata
    have hle : declaredEnd data ≤ data.bytes.length := by
      rw [hend, hdata, ← hbytes, List.length_append]
      exact Nat.le_add_right _ _
    have hcomplete : HeaderComplete data := by
      refine ⟨by rw [hdata]; simp, (Nat.le_add_right _ _).trans hle⟩
    obtain ⟨n, hparse, hn⟩ := parseFrame_complete data {} hcomplete hle
    rw [wholeFrame_eq h hkey hdata] at hparse
    rw [hend] at hn
    -- zero would say that the frame is not complete
    have hne : n ≠ 0 := by
      rintro rfl
      exact absurd hn (by simp)
    rw [← hdata, next_eq (by rw [hdata]; simp), hparse, hdata, ← hbytes]
    show Except.ok (if n = 0 then none else _) = _
    rw [if_neg hne, hn, List.drop_left]
  incomplete part hpart hne hfits := by
    obtain ⟨data, rfl⟩ : ∃ data : Buffer, data.bytes = part := ⟨⟨_, hfits⟩, rfl⟩
    by_cases hcomplete : HeaderComplete data
    · have hlt : data.bytes.length < (b0 :: b1 :: (ext ++ (key ++ payload))).length :=
        Nat.lt_of_le_of_ne hpart.length_le fun heq => hne (hpart.eq_of_length heq)
      obtain ⟨more, hdata⟩ := bytes_of_headerComplete h hkey hpart hcomplete
      have hend := declaredEnd_eq h hkey hdata
      -- the end does not wrap, as the payload is below 2 ^ 63
      have hfit : declaredEnd data < 2 ^ 64 := by
        have hshort := (headerLength_le (secondByte data)).2
        have hsecond : secondByte data = b1 := by rw [secondByte, hdata]; rfl
        rw [declaredEnd, hsecond, hdata, h.declared b0 b1 more, ← hsecond]
        omega
      obtain ⟨frame, hparse⟩ := parseFrame_short data {} hcomplete hfit (hend ▸ hlt)
      exact next_of_zero hparse
    · obtain ⟨frame, hparse⟩ := parseFrame_incomplete data {} hcomplete
      exact next_of_zero hparse

end Header

/-! ### Built frames -/

/-- How much payload the header of a built frame declares. -/
def BuiltFrame.declared : BuiltFrame → ℕ
  | .pong payload => if payload.length < 126 then payload.length else payload.length % 65536
  | frame => frame.payload.length

/-- A pong of more than 16 bits declares less than it carries. -/
theorem BuiltFrame.declared_eq_iff (frame : BuiltFrame) :
    frame.declared = frame.payload.length ↔
      ∀ payload, frame = .pong payload → payload.length ≤ 65535 := by
  cases frame with
  | pong sent =>
      have hmod := Nat.mod_lt sent.length (y := 65536) (by decide)
      constructor
      · rintro h payload heq
        obtain rfl := BuiltFrame.pong.inj heq
        simp only [declared, payload] at h
        split at h <;> omega
      · intro h
        have hshort := h sent rfl
        simp only [declared, payload]
        split
        · rfl
        · exact Nat.mod_eq_of_lt (by omega)
  | text sent => exact iff_of_true rfl (fun _ h => absurd h (by simp))
  | binary sent => exact iff_of_true rfl (fun _ h => absurd h (by simp))
  | close code => exact iff_of_true rfl (fun _ h => absurd h (by simp))

theorem BuiltFrame.declared_le (frame : BuiltFrame) : frame.declared ≤ frame.payload.length := by
  cases frame with
  | pong sent =>
      simp only [declared, payload]
      split
      · exact le_rfl
      · exact Nat.mod_le _ _
  | _ => exact le_rfl

theorem short_unmasked {len : ℕ} (h : len < 126) : (UInt8.ofNat len &&& 0x80 != 0) = false := by
  have hall : ∀ n : Fin 126, (UInt8.ofNat n &&& 0x80 != 0) = false := by decide +kernel
  exact hall ⟨len, h⟩

/-- The length field the text and binary builders write before a payload. -/
theorem lengthField_append {sent : List UInt8} (h : sent.length < 2 ^ 63) :
    ∃ b1 ext, (if sent.length < 126 then [UInt8.ofNat sent.length]
        else if sent.length ≤ 0xFFFF then 126 :: writeU16 (UInt16.ofNat sent.length)
        else 127 :: writeU64 (UInt64.ofNat sent.length)) ++ sent = b1 :: (ext ++ sent) ∧
      Declares b1 ext sent.length ∧ (b1 &&& 0x80 != 0) = false := by
  split
  · rename_i hshort
    exact ⟨_, _, rfl, declares_short hshort, short_unmasked hshort⟩
  · split
    · rename_i hword
      have hvalue : (UInt16.ofNat sent.length).toNat = sent.length := Nat.mod_eq_of_lt (by omega)
      rw [writeU16_eq, hvalue]
      exact ⟨_, _, rfl, declares_u16 (by omega), rfl⟩
    · have hvalue : (UInt64.ofNat sent.length).toNat = sent.length := Nat.mod_eq_of_lt (by omega)
      rw [writeU64_eq, hvalue]
      exact ⟨_, _, rfl, declares_u64 (by omega), rfl⟩

/-- A built frame: its opcode, a length field and the payload. -/
theorem BuiltFrame.bytes_eq (frame : BuiltFrame) (hlen : frame.payload.length < 2 ^ 63) :
    ∃ b0 b1 ext, frame.bytes = b0 :: b1 :: (ext ++ frame.payload) ∧
      WsOpcode.ofNibble (b0 &&& 0x0F) = frame.opcode ∧ Declares b1 ext frame.declared ∧
      (b1 &&& 0x80 != 0) = false := by
  cases frame with
  | text sent =>
      obtain ⟨b1, ext, hfield, hdeclares, hunmasked⟩ := lengthField_append hlen
      exact ⟨0x81, b1, ext, congrArg (0x81 :: ·) hfield, rfl, hdeclares, hunmasked⟩
  | binary sent =>
      obtain ⟨b1, ext, hfield, hdeclares, hunmasked⟩ := lengthField_append hlen
      exact ⟨0x82, b1, ext, congrArg (0x82 :: ·) hfield, rfl, hdeclares, hunmasked⟩
  | pong sent =>
      by_cases hshort : sent.length < 126
      · refine ⟨0x8A, UInt8.ofNat sent.length, [], ?_, rfl, ?_, short_unmasked hshort⟩
        · simp [bytes, buildPongFrame, hshort, payload]
        · simpa [declared, hshort] using declares_short hshort
      · refine ⟨0x8A, 126, be 2 (sent.length % 65536), ?_, rfl, ?_, rfl⟩
        · have hvalue : (UInt16.ofNat sent.length).toNat = sent.length % 65536 := rfl
          simp [bytes, buildPongFrame, hshort, payload, writeU16_eq, hvalue]
        · simpa [declared, hshort] using declares_u16 (Nat.mod_lt sent.length (by decide))
  | close code => exact ⟨0x88, 2, [], rfl, rfl, declares_short (by decide), rfl⟩

/-! ### Masks -/

theorem take_unmask (key sent : List UInt8) (n : ℕ) :
    (unmask key sent).take n = unmask key (sent.take n) := by
  refine List.ext_getElem? fun i => ?_
  simp only [unmask, List.getElem?_take, List.getElem?_mapIdx]
  split <;> rfl

/-- Masking twice is masking not at all. -/
theorem unmask_unmask (key sent : List UInt8) : unmask key (unmask key sent) = sent := by
  refine List.ext_getElem? fun i => ?_
  simp only [unmask, List.getElem?_mapIdx, Option.map_map]
  cases sent[i]? with
  | none => rfl
  | some b =>
      have htwice (k : UInt8) : b ^^^ k ^^^ k = b := by
        rw [UInt8.xor_assoc, UInt8.xor_self, UInt8.xor_zero]
      simp [htwice]

namespace WireFrame

/-- A frame on the wire: as built, or with its payload masked. -/
theorem bytes_eq (frame : WireFrame) (hlen : frame.built.payload.length < 2 ^ 63) :
    ∃ b0 b1 ext key body, frame.bytes = b0 :: b1 :: (ext ++ (key ++ body)) ∧
      WsOpcode.ofNibble (b0 &&& 0x0F) = frame.built.opcode ∧
      Declares b1 ext frame.built.declared ∧ (key.length = if b1 &&& 0x80 != 0 then 4 else 0) ∧
      body.length = frame.built.payload.length ∧
      ∀ n, framePayload (b1 &&& 0x80 != 0) key (body.take n) = frame.built.payload.take n := by
  obtain ⟨b0, b1, ext, hbytes, hopcode, hdeclares, hunmasked⟩ := frame.built.bytes_eq hlen
  cases hkey : frame.key with
  | none =>
      refine ⟨b0, b1, ext, [], frame.built.payload, ?_, hopcode, hdeclares, ?_, rfl, fun n => ?_⟩
      · rw [bytes, hkey]
        exact hbytes
      · rw [hunmasked]
        rfl
      · rw [hunmasked]
        rfl
  | some key =>
      have hmasked := (or_mask b1).2
      refine ⟨b0, b1 ||| 0x80, ext, key.1, unmask key.1 frame.built.payload, ?_, hopcode,
        hdeclares.mask, ?_, unmask_length _ _, fun n => ?_⟩
      · have hext : lengthEnd b1 - 2 = ext.length := by rw [hdeclares.lengthEnd, Nat.add_sub_cancel]
        rw [bytes, hkey]
        show maskFrame key.1 frame.built.bytes = _
        rw [hbytes, maskFrame, hext, List.take_left, List.drop_left]
      · rw [hmasked, key.2]
        rfl
      · rw [hmasked, take_unmask]
        exact unmask_unmask key.1 _

/-- **What is read first** of a frame and whatever follows it: its opcode, and as much of its
payload as its header declares. -/
theorem exists_decodes (frame : WireFrame) (hlen : frame.built.payload.length < 2 ^ 63) :
    ∃ wire tail read, frame.bytes = wire ++ tail ∧ wire ≠ [] ∧
      (frame.built.declared = frame.built.payload.length → tail = []) ∧
      Decodes decoder ptrdiffMax (wire, read) ∧ read.opcode = frame.built.opcode ∧
      read.payload = frame.built.payload.take frame.built.declared := by
  obtain ⟨b0, b1, ext, key, body, hbytes, hopcode, hdeclares, hkey, hbody, hpayload⟩ :=
    frame.bytes_eq hlen
  have hle := frame.built.declared_le
  have htake : (body.take frame.built.declared).length = frame.built.declared := by
    rw [List.length_take, hbody, Nat.min_eq_left hle]
  refine ⟨b0 :: b1 :: (ext ++ (key ++ body.take frame.built.declared)),
    body.drop frame.built.declared, readAs b0 b1 key (body.take frame.built.declared), ?_, by simp,
    fun hall => ?_, ?_, hopcode, hpayload _⟩
  · rw [hbytes]
    simp
  · rw [hall, ← hbody, List.drop_length]
  · refine decodes_header ?_ hkey (by omega)
    rw [htake]
    exact hdeclares

end WireFrame

/-! ### Streams of frames -/

/-- No pong is longer than its header can say. -/
def PongsShort (frames : List WireFrame) : Prop :=
  ∀ frame ∈ frames, ∀ payload, frame.built = .pong payload → payload.length ≤ 65535

theorem exists_first_long {frames : List WireFrame} (h : ¬ PongsShort frames) :
    ∃ good bad more, frames = good ++ bad :: more ∧ PongsShort good ∧
      ¬ ∀ payload, bad.built = .pong payload → payload.length ≤ 65535 := by
  induction frames with
  | nil => exact absurd (fun _ hframe => absurd hframe List.not_mem_nil) h
  | cons frame frames ih =>
      by_cases hframe : ∀ payload, frame.built = .pong payload → payload.length ≤ 65535
      · have hrest : ¬ PongsShort frames := fun hrest => h (List.forall_mem_cons.mpr ⟨hframe, hrest⟩)
        obtain ⟨good, bad, more, rfl, hgood, hbad⟩ := ih hrest
        exact ⟨frame :: good, bad, more, rfl, List.forall_mem_cons.mpr ⟨hframe, hgood⟩, hbad⟩
      · exact ⟨[], frame, frames, rfl, fun _ hnone => absurd hnone List.not_mem_nil, hframe⟩

/-- Opcode and payload of what was read. -/
def received (frame : WsFrame) : WsOpcode × List UInt8 := (frame.opcode, frame.payload)

theorem receives_iff_feed {chunks : List (List UInt8)} {messages : List (WsOpcode × List UInt8)} :
    Receives chunks messages ↔
      ∃ frames, decoder.feed ptrdiffMax .lengthError [] chunks = .ok (frames, []) ∧
        frames.map received = messages := by
  have hfeed : _ = decoder.feed _ _ [] chunks := readFrames_eq_feed emptyBuffer chunks
  rw [← hfeed]
  constructor
  · rintro ⟨frames, rest, hread, hmessages, hrest⟩
    refine ⟨frames, ?_, hmessages⟩
    rw [hread, ← hrest]
    rfl
  · rintro ⟨frames, hread, hmessages⟩
    obtain ⟨⟨read, rest⟩, hok, hout⟩ := map_eq_ok_iff.mp hread
    obtain ⟨rfl, hrest⟩ := Prod.mk.inj hout
    exact ⟨read, rest, hok, hmessages, hrest⟩

/-- Short pongs and all other frames as messages of the stream. -/
theorem exists_messages {frames : List WireFrame}
    (hlen : ∀ frame ∈ frames, frame.built.payload.length < 2 ^ 63) (hshort : PongsShort frames) :
    ∃ ms : List (List UInt8 × WsFrame), ms.map (·.1) = frames.map WireFrame.bytes ∧
      ms.map (received ·.2) = frames.map WireFrame.message ∧
      (∀ m ∈ ms, Decodes decoder ptrdiffMax m) ∧ ∀ m ∈ ms, m.1 ≠ [] := by
  induction frames with
  | nil => exact ⟨[], rfl, rfl, by simp, by simp⟩
  | cons frame frames ih =>
      obtain ⟨hframe, hframes⟩ := List.forall_mem_cons.mp hlen
      obtain ⟨hpong, hpongs⟩ := List.forall_mem_cons.mp hshort
      obtain ⟨ms, hbytes, hmessages, hdecodes, hnonempty⟩ := ih hframes hpongs
      obtain ⟨wire, tail, read, hwire, hne, htail, hread, hopcode, hpayload⟩ :=
        frame.exists_decodes hframe
      have hall := frame.built.declared_eq_iff.mpr hpong
      rw [htail hall, List.append_nil] at hwire
      rw [hall, List.take_length] at hpayload
      refine ⟨(wire, read) :: ms, ?_, ?_, ?_, ?_⟩
      · rw [List.map_cons, List.map_cons, hbytes, hwire]
      · rw [List.map_cons, List.map_cons, hmessages, received, hopcode, hpayload]
        rfl
      · exact List.forall_mem_cons.mpr ⟨hread, hdecodes⟩
      · exact List.forall_mem_cons.mpr ⟨hne, hnonempty⟩

/-- Short pongs and all other frames are received as sent if there is room. -/
theorem receives_iff_fits {frames : List WireFrame}
    (hlen : ∀ frame ∈ frames, frame.built.payload.length < 2 ^ 63) {chunks : List (List UInt8)}
    (hcut : chunks.flatten = frames.flatMap WireFrame.bytes) (hshort : PongsShort frames) :
    Receives chunks (frames.map WireFrame.message) ↔
      Fits ptrdiffMax (frames.map (·.bytes.length)) 0 chunks := by
  obtain ⟨ms, hbytes, hmessages, hdecodes, hnonempty⟩ := exists_messages hlen hshort
  have hwires : chunks.flatten = wires ms := by
    rw [hcut, List.flatMap_def, ← hbytes, wires, List.flatMap_def]
  have hlengths : frames.map (·.bytes.length) = ms.map (·.1.length) := by
    have hmap := congrArg (List.map List.length) hbytes.symm
    rwa [List.map_map, List.map_map] at hmap
  have hfits : decoder.feed ptrdiffMax .lengthError [] chunks = .ok (ms.map (·.2), []) ↔ _ :=
    feed_iff hdecodes hnonempty hwires
  rw [hlengths, ← hfits, receives_iff_feed]
  constructor
  · rintro ⟨read, hfeed, hread⟩
    have hwhole : [] ++ chunks.flatten = wires ms ++ [] := by
      rw [List.nil_append, List.append_nil, hwires]
    have hprefix := prefix_of_feed hdecodes (undone_nil hnonempty) hwhole hfeed
    have hlength := congrArg List.length (hread.trans hmessages.symm)
    rwa [List.IsPrefix.eq_of_length hprefix (by simpa using hlength.symm)]
  · intro hfeed
    exact ⟨_, hfeed, by rw [List.map_map]; exact hmessages⟩

/-- A long pong is not received as sent. -/
theorem not_receives_of_long {frames : List WireFrame}
    (hlen : ∀ frame ∈ frames, frame.built.payload.length < 2 ^ 63) {chunks : List (List UInt8)}
    (hcut : chunks.flatten = frames.flatMap WireFrame.bytes) (hlong : ¬ PongsShort frames) :
    ¬ Receives chunks (frames.map WireFrame.message) := by
  obtain ⟨good, bad, more, rfl, hgood, hbad⟩ := exists_first_long hlong
  have hlenGood : ∀ frame ∈ good, frame.built.payload.length < 2 ^ 63 := fun frame hframe =>
    hlen frame (List.mem_append_left _ hframe)
  obtain ⟨ms, hbytes, hmessages, hdecodes, hnonempty⟩ := exists_messages hlenGood hgood
  obtain ⟨wire, tail, read, hwire, hne, -, hread, -, hpayload⟩ :=
    bad.exists_decodes (hlen bad (by simp))
  have hall : ∀ m ∈ ms ++ [(wire, read)], Decodes decoder ptrdiffMax m := fun m hm => by
    rcases List.mem_append.mp hm with hm | hm
    · exact hdecodes m hm
    · exact List.mem_singleton.mp hm ▸ hread
  have hnone : ∀ m ∈ ms ++ [(wire, read)], m.1 ≠ [] := fun m hm => by
    rcases List.mem_append.mp hm with hm | hm
    · exact hnonempty m hm
    · exact List.mem_singleton.mp hm ▸ hne
  have hwhole : [] ++ chunks.flatten =
      wires (ms ++ [(wire, read)]) ++ (tail ++ more.flatMap WireFrame.bytes) := by
    have hwires : good.flatMap WireFrame.bytes = wires ms := by
      rw [List.flatMap_def, ← hbytes, wires, List.flatMap_def]
    rw [List.nil_append, hcut, List.flatMap_append, List.flatMap_cons, hwires, hwire]
    simp [wires]
  rw [receives_iff_feed]
  rintro ⟨frames, hfeed, hreceived⟩
  have hprefix := (prefix_of_feed hall (undone_nil hnone) hwhole hfeed).map received
  rw [hreceived, List.map_map, List.map_append, List.map_append, List.map_cons] at hprefix
  have hfirst : ms.map (received ∘ (·.2)) = good.map WireFrame.message := hmessages
  rw [hfirst, List.prefix_append_right_inj] at hprefix
  -- what was read in place of the long pong has less payload
  have hsame : received read = bad.message := (List.cons_prefix_cons.mp hprefix).1
  have hcutOff := congrArg (fun message => message.2.length) hsame
  refine hbad (bad.built.declared_eq_iff.mp ?_)
  have hle := bad.built.declared_le
  simp only [received, WireFrame.message, hpayload, List.length_take] at hcutOff
  omega

/-- **Frames are received as they were sent**, whatever the chunks are, exactly if no pong carries
more than 65535 bytes and every chunk finds room in the buffer behind the frame it continues. -/
theorem receives_iff (frames : List WireFrame)
    (hlen : ∀ frame ∈ frames, frame.built.payload.length < 2 ^ 63) (chunks : List (List UInt8))
    (hcut : chunks.flatten = frames.flatMap WireFrame.bytes) :
    Receives chunks (frames.map WireFrame.message) ↔
      PongsShort frames ∧ Fits ptrdiffMax (frames.map (·.bytes.length)) 0 chunks := by
  by_cases hshort : PongsShort frames
  · rw [receives_iff_fits hlen hcut hshort, and_iff_right hshort]
  · exact iff_of_false (not_receives_of_long hlen hcut hshort) fun h => hshort h.1

/-- A text frame as built, and a pong as a client sends it. -/
def twoFrames : List WireFrame :=
  [{ built := .text [0x68, 0x69] },
    { built := .pong [1, 2], key := some ⟨[9, 8, 7, 6], rfl⟩ }]

theorem receives_twoFrames :
    Receives [[0x81], [0x02, 0x68], [0x69, 0x8A, 0x82, 9, 8], [7, 6, 8], [10]]
      (twoFrames.map WireFrame.message) := by
  refine (receives_iff twoFrames (by decide) _ (by decide)).mpr ⟨?_, by decide⟩
  intro frame hframe payload hpong
  rcases List.mem_pair.mp hframe with rfl | rfl
  · exact absurd hpong (by simp)
  · obtain rfl := BuiltFrame.pong.inj hpong
    decide

/-- A pong of 65536 bytes. -/
def longPong : WireFrame where
  built := .pong (List.replicate 65536 0)

/-- Its header declares no payload. -/
theorem receives_refuted : ¬ Receives [longPong.bytes] [longPong.message] := by
  have hcut : [longPong.bytes].flatten = [longPong].flatMap WireFrame.bytes := rfl
  refine not_receives_of_long ?_ hcut fun hshort => ?_
  · intro frame hframe
    obtain rfl := List.mem_singleton.mp hframe
    show (List.replicate 65536 (0 : UInt8)).length < 2 ^ 63
    rw [List.length_replicate]
    decide
  · have hlength := hshort longPong List.mem_cons_self _ rfl
    rw [List.length_replicate] at hlength
    exact absurd hlength (by decide)

end LoongNvr.Network
