import LoongNvr.Support.Buffer
import Mathlib.Tactic.Linarith

/-!
# Network — WebSocketFrame

`WebSocketFrame`: the frames it builds, and `ParseFrame` over a byte buffer, with its 64-bit
unsigned arithmetic.

The source adds the position after the header and the declared payload length in 64 bits, and a
client may declare any 64-bit length.

* `parseFrame_incomplete`, `parseFrame_wraps`, `parseFrame_short`, `parseFrame_complete`: the
  four ways a call can go, by the header's length and the declared length.
* `parseFrame_in_bounds`: no call reads outside its buffer.
* `parseFrame_safe_iff`: a call returns 0 or a frame inside the buffer exactly when the sum of
  header and declared length does not pass 2^64; where it does, `payload.resize` throws.
-/

namespace LoongNvr.Network
open Support

/-- `WsOpcode`; the cast from the nibble also makes values the enumeration does not name. -/
inductive WsOpcode
  | continuation
  | text
  | binary
  | close
  | ping
  | pong
  | unnamed (nibble : UInt8)
  deriving DecidableEq, Repr

/-- `static_cast<WsOpcode>(nibble)` -/
def WsOpcode.ofNibble (nibble : UInt8) : WsOpcode :=
  if nibble = 0x0 then .continuation
  else if nibble = 0x1 then .text
  else if nibble = 0x2 then .binary
  else if nibble = 0x8 then .close
  else if nibble = 0x9 then .ping
  else if nibble = 0xA then .pong
  else .unnamed nibble

/-- A parsed WebSocket frame. -/
structure WsFrame where
  fin : Bool := true
  opcode : WsOpcode := .text
  masked : Bool := false
  maskKey : List UInt8 := [0, 0, 0, 0]
  payload : List UInt8 := []
  deriving DecidableEq, Repr

/-! ### Building -/

def buildTextFrame (text : List UInt8) : List UInt8 :=
  let len := text.length
  let length :=
    if len < 126 then [UInt8.ofNat len]
    else if len ≤ 0xFFFF then 126 :: writeU16 (UInt16.ofNat len)
    else 127 :: writeU64 (UInt64.ofNat len)
  0x81 :: (length ++ text)

/-- Of a length above 16 bits the low 16 are written. -/
def buildPongFrame (payload : List UInt8) : List UInt8 :=
  let len := payload.length
  let length :=
    if len < 126 then [UInt8.ofNat len]
    else 126 :: writeU16 (UInt16.ofNat len)
  0x8A :: (length ++ payload)

def buildCloseFrame (code : UInt16) : List UInt8 := 0x88 :: 2 :: writeU16 code

/-! ### Parsing -/

/-- The position after the length field and the declared payload length; `none` where the
source returns 0 because the field is not complete. -/
def parseLength (data : Buffer) (b1 : UInt8) : Checked (Option (UInt64 × UInt64)) :=
  let payloadLen := (b1 &&& 0x7F).toUInt64
  if payloadLen = 126 then
    if data.len < 4 then return none
    else do
      let hi ← data.read 2
      let lo ← data.read 3
      return some (4, hi.toUInt64 <<< 8 ||| lo.toUInt64)
  else if payloadLen = 127 then
    if data.len < 10 then return none
    else do
      let payloadLen ← data.readBe 2 8 0
      return some (10, payloadLen)
  else return some (2, payloadLen)

/-- The position after the mask key and the key the frame then holds; `none` where the source
returns 0 because the key is not complete. -/
def parseMaskKey (data : Buffer) (frame : WsFrame) (pos : UInt64) :
    Checked (Option (UInt64 × List UInt8)) :=
  if frame.masked then
    if data.len < pos + 4 then return none
    else do
      let key ← data.copy pos 4
      return some (pos + 4, key)
  else return some (pos, frame.maskKey)

/-- `payload[i] ^= mask_key[i % 4]` for every `i`. -/
def unmask (key payload : List UInt8) : List UInt8 :=
  payload.mapIdx fun i b => b ^^^ key.getD (i % 4) 0

/-- The size check, the copy and the unmasking, from the position after the header. -/
def parsePayload (data : Buffer) (frame : WsFrame) (pos payloadLen : UInt64) :
    Checked (UInt64 × WsFrame) :=
  if data.len < pos + payloadLen then return (0, frame)
  else do
    resize payloadLen
    let payload ← data.copy pos payloadLen
    return (pos + payloadLen,
      { frame with payload := if frame.masked then unmask frame.maskKey payload else payload })

/-- `WebSocketFrame::ParseFrame`: the bytes consumed, or 0 if there are not enough, and what it
leaves in `frame`. -/
def parseFrame (data : Buffer) (frame : WsFrame) : Checked (UInt64 × WsFrame) :=
  if data.len < 2 then return (0, frame)
  else do
    let b0 ← data.read 0
    let b1 ← data.read 1
    let frame := { frame with
      fin := b0 &&& 0x80 != 0, opcode := .ofNibble (b0 &&& 0x0F), masked := b1 &&& 0x80 != 0 }
    match ← parseLength data b1 with
    | none => return (0, frame)
    | some (pos, payloadLen) =>
        match ← parseMaskKey data frame pos with
        | none => return (0, frame)
        | some (pos, key) => parsePayload data { frame with maskKey := key } pos payloadLen

/-! ### What the header declares -/

/-- The bytes before the mask key: 2, 4 or 10. -/
def lengthEnd (b1 : UInt8) : ℕ :=
  if b1 &&& 0x7F = 126 then 4 else if b1 &&& 0x7F = 127 then 10 else 2

/-- The header's length: 2, 4 or 10 bytes, and 4 more when the frame is masked. -/
def headerLength (b1 : UInt8) : ℕ := lengthEnd b1 + if b1 &&& 0x80 != 0 then 4 else 0

/-- The payload length the header declares, as a number. -/
def declaredLength (bytes : List UInt8) (b1 : UInt8) : ℕ :=
  if b1 &&& 0x7F = 126 then beNat ((bytes.drop 2).take 2)
  else if b1 &&& 0x7F = 127 then beNat ((bytes.drop 2).take 8)
  else (b1 &&& 0x7F).toNat

/-- The second byte, which carries the mask bit and the short length. -/
def secondByte (data : Buffer) : UInt8 := data.bytes.getD 1 0

/-- All header bytes are in the buffer. -/
def HeaderComplete (data : Buffer) : Prop :=
  2 ≤ data.bytes.length ∧ headerLength (secondByte data) ≤ data.bytes.length

instance (data : Buffer) : Decidable (HeaderComplete data) := inferInstanceAs (Decidable (_ ∧ _))

/-- Header and declared payload together, as a number. -/
def declaredEnd (data : Buffer) : ℕ :=
  headerLength (secondByte data) + declaredLength data.bytes (secondByte data)

/-! ### The header fields -/

/-- The short length is compared after a conversion to 64 bits. -/
theorem toUInt64_eq_iff (b c : UInt8) : b.toUInt64 = c.toUInt64 ↔ b = c := by
  simp only [← UInt64.toNat_inj, ← UInt8.toNat_inj, UInt8.toNat_toUInt64]

theorem parseLength_incomplete {data : Buffer} {b1 : UInt8} (h₂ : 2 ≤ data.bytes.length)
    (h : data.bytes.length < lengthEnd b1) : parseLength data b1 = .ok none := by
  rw [lengthEnd] at h
  simp only [parseLength]
  by_cases e₁ : b1 &&& 0x7F = 126
  · rw [if_pos e₁] at h
    have hlt : data.len < 4 := Buffer.len_lt_iff.mpr h
    simp [e₁, hlt]
    rfl
  · rw [if_neg e₁] at h
    by_cases e₂ : b1 &&& 0x7F = 127
    · rw [if_pos e₂] at h
      have hlt : data.len < 10 := Buffer.len_lt_iff.mpr h
      simp [e₂, hlt]
      rfl
    · rw [if_neg e₂] at h
      omega

theorem parseLength_complete {data : Buffer} {b1 : UInt8} (h : lengthEnd b1 ≤ data.bytes.length) :
    ∃ pos payloadLen, parseLength data b1 = .ok (some (pos, payloadLen)) ∧
      pos.toNat = lengthEnd b1 ∧ payloadLen.toNat = declaredLength data.bytes b1 := by
  simp only [lengthEnd] at h ⊢
  simp only [parseLength, declaredLength]
  by_cases e₁ : b1 &&& 0x7F = 126
  · -- the length is the two bytes after the fixed ones
    rw [if_pos e₁] at h
    have hge : ¬ data.len < 4 := fun hlt => absurd h (Nat.not_le_of_lt (Buffer.len_lt_iff.mp hlt))
    have h₂ : 2 < data.bytes.length := by omega
    have h₃ : 3 < data.bytes.length := by omega
    have hbytes : (data.bytes.drop 2).take 2 = [data.bytes[2], data.bytes[3]] := by
      rw [List.drop_eq_getElem_cons h₂, List.drop_eq_getElem_cons h₃]; rfl
    refine ⟨4, data.bytes[2].toUInt64 <<< 8 ||| data.bytes[3].toUInt64, ?_, by simp [e₁], ?_⟩
    · have r₂ : data.read 2 = .ok data.bytes[2] := Buffer.read_eq (i := 2) h₂
      have r₃ : data.read 3 = .ok data.bytes[3] := Buffer.read_eq (i := 3) h₃
      simp only [e₁, r₂, r₃, if_neg hge]; rfl
    · have hhi : data.bytes[2].toUInt64.toNat < 2 ^ 56 := by
        have := data.bytes[2].toNat_lt
        rw [UInt8.toNat_toUInt64]; omega
      rw [if_pos e₁, hbytes, pushByte_toNat _ _ hhi, UInt8.toNat_toUInt64]
      simp [beNat, beNatFrom]
  · rw [if_neg e₁] at h
    have n₁ : (b1 &&& 0x7F).toUInt64 ≠ 126 := fun e => e₁ ((toUInt64_eq_iff _ 126).mp e)
    by_cases e₂ : b1 &&& 0x7F = 127
    · -- it is the eight bytes after them
      rw [if_pos e₂] at h
      have hge : ¬ data.len < 10 := fun hlt =>
        absurd h (Nat.not_le_of_lt (Buffer.len_lt_iff.mp hlt))
      obtain ⟨x, hx, hval⟩ := data.readBe_eq 2 8 0 h (by decide)
      refine ⟨10, x, ?_, by simp [e₂], by simpa [e₂, beNat] using hval⟩
      simp only [e₂, hx, if_neg hge]; rfl
    · -- it is the seven bits themselves
      have n₂ : (b1 &&& 0x7F).toUInt64 ≠ 127 := fun e => e₂ ((toUInt64_eq_iff _ 127).mp e)
      refine ⟨2, (b1 &&& 0x7F).toUInt64, ?_, by simp [e₁, e₂], ?_⟩
      · simp only [if_neg n₁, if_neg n₂]; rfl
      · rw [if_neg e₁, if_neg e₂, UInt8.toNat_toUInt64]

theorem lengthEnd_le (b1 : UInt8) : 2 ≤ lengthEnd b1 ∧ lengthEnd b1 ≤ 10 := by
  simp only [lengthEnd]
  split
  · decide
  · split <;> decide

theorem headerLength_le (b1 : UInt8) : 2 ≤ headerLength b1 ∧ headerLength b1 ≤ 14 := by
  obtain ⟨hlo, hhi⟩ := lengthEnd_le b1
  simp only [headerLength]
  split <;> omega

/-- The position after the mask key, which stays small. -/
theorem maskEnd_toNat {pos : UInt64} (h : pos.toNat ≤ 10) : (pos + 4).toNat = pos.toNat + 4 := by
  rw [UInt64.toNat_add]
  simp only [UInt64.reduceToNat]
  omega

theorem parseMaskKey_incomplete {data : Buffer} {frame : WsFrame} {pos : UInt64}
    (hpos : pos.toNat ≤ 10) (hm : frame.masked = true) (h : data.bytes.length < pos.toNat + 4) :
    parseMaskKey data frame pos = .ok none := by
  have hlt : data.len < pos + 4 := Buffer.len_lt_iff.mpr (by rwa [maskEnd_toNat hpos])
  simp [parseMaskKey, hm, hlt]
  rfl

theorem parseMaskKey_complete {data : Buffer} {frame : WsFrame} {pos : UInt64}
    (hpos : pos.toNat ≤ 10)
    (h : pos.toNat + (if frame.masked then 4 else 0) ≤ data.bytes.length) :
    ∃ pos', parseMaskKey data frame pos = .ok (some (pos',
        if frame.masked then (data.bytes.drop pos.toNat).take 4 else frame.maskKey)) ∧
      pos'.toNat = pos.toNat + if frame.masked then 4 else 0 := by
  simp only [parseMaskKey]
  by_cases hm : frame.masked = true
  · rw [if_pos hm] at h
    have hge : ¬ data.len < pos + 4 := by
      rw [Buffer.len_lt_iff, maskEnd_toNat hpos]
      exact Nat.not_lt_of_le h
    have hcopy : data.copy pos 4 = .ok ((data.bytes.drop pos.toNat).take 4) :=
      Buffer.copy_eq (n := 4) h
    refine ⟨pos + 4, ?_, by rw [if_pos hm, maskEnd_toNat hpos]⟩
    simp only [if_pos hm, if_neg hge, hcopy]; rfl
  · refine ⟨pos, ?_, by rw [if_neg hm]; rfl⟩
    rw [if_neg hm, if_neg hm]; rfl

/-! ### The payload -/

theorem unmask_length (key payload : List UInt8) :
    (unmask key payload).length = payload.length := by
  simp [unmask]

/-- What is copied, unmasked if the frame is masked. -/
def framePayload (masked : Bool) (key payload : List UInt8) : List UInt8 :=
  if masked then unmask key payload else payload

theorem framePayload_length (masked : Bool) (key payload : List UInt8) :
    (framePayload masked key payload).length = payload.length := by
  rw [framePayload]
  split
  · exact unmask_length key payload
  · rfl

section Payload

variable {data : Buffer} {frame : WsFrame} {pos payloadLen : UInt64}

/-- The sum wraps: the check passes, and no container has the declared size. -/
theorem parsePayload_wraps (hpos : pos.toNat ≤ 14) (hin : pos.toNat ≤ data.bytes.length)
    (h : 2 ^ 64 ≤ pos.toNat + payloadLen.toNat) :
    parsePayload data frame pos payloadLen = .error .lengthError := by
  have hlt := payloadLen.toNat_lt
  have hge : ¬ data.len < pos + payloadLen := by
    rw [Buffer.len_lt_iff, UInt64.toNat_add]
    omega
  -- the header is short, so only a length of almost 2^64 takes the sum that far
  have hbig : ¬ payloadLen.toNat ≤ ptrdiffMax := by simp only [ptrdiffMax]; omega
  simp only [parsePayload, if_neg hge, resize, if_neg hbig]; rfl

theorem parsePayload_short (hfit : pos.toNat + payloadLen.toNat < 2 ^ 64)
    (h : data.bytes.length < pos.toNat + payloadLen.toNat) :
    parsePayload data frame pos payloadLen = .ok (0, frame) := by
  have hl : data.len < pos + payloadLen := by
    rwa [Buffer.len_lt_iff, UInt64.toNat_add, Nat.mod_eq_of_lt hfit]
  simp only [parsePayload, if_pos hl]
  rfl

theorem parsePayload_complete (h : pos.toNat + payloadLen.toNat ≤ data.bytes.length) :
    ∃ n, parsePayload data frame pos payloadLen = .ok (n, { frame with
        payload := framePayload frame.masked frame.maskKey
          ((data.bytes.drop pos.toNat).take payloadLen.toNat) }) ∧
      n.toNat = pos.toNat + payloadLen.toNat := by
  have hmax := data.size_le
  have hsum : (pos + payloadLen).toNat = pos.toNat + payloadLen.toNat := by
    rw [UInt64.toNat_add]
    simp only [ptrdiffMax] at hmax
    omega
  have hge : ¬ data.len < pos + payloadLen := by
    rw [Buffer.len_lt_iff, hsum]
    exact Nat.not_lt_of_le h
  have hsmall : payloadLen.toNat ≤ ptrdiffMax := by omega
  refine ⟨pos + payloadLen, ?_, hsum⟩
  simp only [parsePayload, if_neg hge, resize, if_pos hsmall, Buffer.copy_eq h]; rfl

end Payload

/-! ### The whole call -/

section ParseFrame

variable (data : Buffer) (frame : WsFrame)

/-- What the two fixed bytes say. -/
def fixedFrame : WsFrame :=
  { frame with
    fin := data.bytes.getD 0 0 &&& 0x80 != 0
    opcode := .ofNibble (data.bytes.getD 0 0 &&& 0x0F)
    masked := secondByte data &&& 0x80 != 0 }

/-- With the two fixed bytes there, the call is its two header fields and then the payload. -/
theorem parseFrame_of_fixed (h₂ : 2 ≤ data.bytes.length) :
    parseFrame data frame = (do
        match ← parseLength data (secondByte data) with
        | none => return (0, fixedFrame data frame)
        | some (pos, payloadLen) =>
            match ← parseMaskKey data (fixedFrame data frame) pos with
            | none => return (0, fixedFrame data frame)
            | some (pos, key) =>
                parsePayload data { fixedFrame data frame with maskKey := key } pos
                  payloadLen) := by
  have hge : ¬ data.len < 2 := fun hlt => absurd h₂ (Nat.not_le_of_lt (Buffer.len_lt_iff.mp hlt))
  have r₀ : data.read 0 = .ok data.bytes[0] := Buffer.read_eq (i := 0) (by show 0 < _; omega)
  have r₁ : data.read 1 = .ok data.bytes[1] := Buffer.read_eq (i := 1) (by show 1 < _; omega)
  have hfirst : data.bytes.getD 0 0 = data.bytes[0] := by
    rw [List.getD_eq_getElem?_getD, List.getElem?_eq_getElem, Option.getD_some]
  have hb : secondByte data = data.bytes[1] := by
    rw [secondByte, List.getD_eq_getElem?_getD, List.getElem?_eq_getElem h₂, Option.getD_some]
  simp only [parseFrame, if_neg hge, r₀, r₁, fixedFrame, hb, hfirst]
  rfl

theorem parseFrame_incomplete (h : ¬ HeaderComplete data) :
    ∃ frame', parseFrame data frame = .ok (0, frame') := by
  by_cases h₂ : 2 ≤ data.bytes.length
  · have heq := parseFrame_of_fixed data frame h₂
    have hlt : data.bytes.length < headerLength (secondByte data) :=
      Nat.lt_of_not_le fun hle => h ⟨h₂, hle⟩
    refine ⟨fixedFrame data frame, ?_⟩
    by_cases hl : lengthEnd (secondByte data) ≤ data.bytes.length
    · -- the length field is there, so the frame is masked and its key is not
      obtain ⟨pos, payloadLen, hparse, hpos, -⟩ := parseLength_complete hl
      have hle := (lengthEnd_le (secondByte data)).2
      have hmasked : (secondByte data &&& 0x80 != 0) = (fixedFrame data frame).masked := rfl
      rw [headerLength, hmasked] at hlt
      have hmask : (fixedFrame data frame).masked = true := by
        by_contra hno
        rw [if_neg hno] at hlt
        omega
      have hshort : data.bytes.length < pos.toNat + 4 := by
        rw [if_pos hmask] at hlt
        omega
      have hkey := parseMaskKey_incomplete (by omega) hmask hshort
      rw [heq, hparse]
      simp only [bind, Except.bind, hkey]
      rfl
    · rw [heq, parseLength_incomplete h₂ (Nat.lt_of_not_le hl)]
      rfl
  · have hlt : data.len < 2 := Buffer.len_lt_iff.mpr (Nat.lt_of_not_le h₂)
    exact ⟨frame, by simp only [parseFrame, if_pos hlt]; rfl⟩

/-- The frame with its key read. -/
def headerFrame : WsFrame :=
  { fixedFrame data frame with
    maskKey :=
      if (fixedFrame data frame).masked then (data.bytes.drop (lengthEnd (secondByte data))).take 4
      else frame.maskKey }

/-- With the whole header there, the call is what `parsePayload` does after it. -/
theorem parseFrame_of_header (h : HeaderComplete data) :
    ∃ pos payloadLen,
      parseFrame data frame = parsePayload data (headerFrame data frame) pos payloadLen ∧
      pos.toNat = headerLength (secondByte data) ∧
      payloadLen.toNat = declaredLength data.bytes (secondByte data) := by
  have heq := parseFrame_of_fixed data frame h.1
  have hhead := h.2
  simp only [headerLength] at hhead ⊢
  obtain ⟨pos, payloadLen, hparse, hpos, hlen⟩ :=
    @parseLength_complete data (secondByte data) (by omega)
  have hle := (lengthEnd_le (secondByte data)).2
  obtain ⟨pos', hkey, hpos'⟩ :=
    @parseMaskKey_complete data (fixedFrame data frame) pos (by omega) (by rwa [hpos])
  refine ⟨pos', payloadLen, ?_, by rw [hpos', hpos]; rfl, hlen⟩
  rw [heq, hparse]
  simp only [bind, Except.bind, hkey, headerFrame, hpos]
  rfl

/-- **The wrapped sum.**  A declared length that takes the sum past 2^64 passes the size check,
and `payload.resize` throws. -/
theorem parseFrame_wraps (h : HeaderComplete data) (hwrap : 2 ^ 64 ≤ declaredEnd data) :
    parseFrame data frame = .error .lengthError := by
  obtain ⟨pos, payloadLen, heq, hpos, hlen⟩ := parseFrame_of_header data frame h
  have := (headerLength_le (secondByte data)).2
  rw [heq]
  refine parsePayload_wraps (by omega) (by rw [hpos]; exact h.2) ?_
  rwa [hpos, hlen]

/-- The header is there and the payload is not. -/
theorem parseFrame_short (h : HeaderComplete data) (hfit : declaredEnd data < 2 ^ 64)
    (hlt : data.bytes.length < declaredEnd data) :
    ∃ frame', parseFrame data frame = .ok (0, frame') := by
  obtain ⟨pos, payloadLen, heq, hpos, hlen⟩ := parseFrame_of_header data frame h
  rw [declaredEnd, ← hpos, ← hlen] at hfit hlt
  exact ⟨headerFrame data frame, by rw [heq, parsePayload_short hfit hlt]⟩

/-- What a whole frame reads as. -/
def wholeFrame : WsFrame :=
  { headerFrame data frame with
    payload := framePayload (headerFrame data frame).masked (headerFrame data frame).maskKey
      ((data.bytes.drop (headerLength (secondByte data))).take
        (declaredLength data.bytes (secondByte data))) }

/-- The whole frame is there. -/
theorem parseFrame_complete (h : HeaderComplete data) (hle : declaredEnd data ≤ data.bytes.length) :
    ∃ n, parseFrame data frame = .ok (n, wholeFrame data frame) ∧ n.toNat = declaredEnd data := by
  obtain ⟨pos, payloadLen, heq, hpos, hlen⟩ := parseFrame_of_header data frame h
  rw [declaredEnd, ← hpos, ← hlen] at hle ⊢
  obtain ⟨n, hpay, hn⟩ := @parsePayload_complete data (headerFrame data frame) pos payloadLen hle
  exact ⟨n, by rw [heq, hpay, wholeFrame, hpos, hlen], hn⟩

theorem wholeFrame_length (hle : declaredEnd data ≤ data.bytes.length) :
    (wholeFrame data frame).payload.length = declaredLength data.bytes (secondByte data) := by
  rw [declaredEnd] at hle
  rw [wholeFrame, framePayload_length, List.length_take, List.length_drop]
  omega

/-- **Every read is inside the buffer**, whatever the bytes are. -/
theorem parseFrame_in_bounds : parseFrame data frame ≠ .error .outOfBounds := by
  by_cases h : HeaderComplete data
  · by_cases hwrap : 2 ^ 64 ≤ declaredEnd data
    · rw [parseFrame_wraps data frame h hwrap]
      simp
    · by_cases hle : declaredEnd data ≤ data.bytes.length
      · obtain ⟨n, heq, -⟩ := parseFrame_complete data frame h hle
        simp [heq]
      · obtain ⟨frame', heq⟩ :=
          parseFrame_short data frame h (Nat.lt_of_not_le hwrap) (Nat.lt_of_not_le hle)
        simp [heq]
  · obtain ⟨frame', heq⟩ := parseFrame_incomplete data frame h
    simp [heq]

end ParseFrame

/-! ### Safety -/

/-- The call returns 0, or the length of a frame that lies in the buffer, its payload what is
left of it after the header; it reads nothing outside the buffer and throws nothing. -/
def ParseSafe (data : Buffer) : Checked (UInt64 × WsFrame) → Prop
  | .ok (n, frame) => n = 0 ∨ 2 ≤ n.toNat ∧ n.toNat ≤ data.bytes.length ∧
      n.toNat = headerLength (secondByte data) + frame.payload.length
  | .error _ => False

/-- **When a call is safe**: exactly when header and declared payload, added as numbers, stay
below 2^64, or the header is not complete and nothing is added. -/
theorem parseFrame_safe_iff (data : Buffer) (frame : WsFrame) :
    ParseSafe data (parseFrame data frame) ↔
      (HeaderComplete data → declaredEnd data < 2 ^ 64) := by
  by_cases h : HeaderComplete data
  · by_cases hwrap : 2 ^ 64 ≤ declaredEnd data
    · rw [parseFrame_wraps data frame h hwrap]
      exact ⟨False.elim, fun hfit => absurd (hfit h) (Nat.not_lt_of_le hwrap)⟩
    · refine ⟨fun _ _ => Nat.lt_of_not_le hwrap, fun _ => ?_⟩
      by_cases hle : declaredEnd data ≤ data.bytes.length
      · obtain ⟨n, heq, hn⟩ := parseFrame_complete data frame h hle
        have hsize := wholeFrame_length data frame hle
        have := (headerLength_le (secondByte data)).1
        rw [heq]
        refine .inr ⟨?_, by omega, by rw [hn, hsize, declaredEnd]⟩
        rw [hn, declaredEnd]
        omega
      · obtain ⟨frame', heq⟩ :=
          parseFrame_short data frame h (Nat.lt_of_not_le hwrap) (Nat.lt_of_not_le hle)
        rw [heq]
        exact .inl rfl
  · obtain ⟨frame', heq⟩ := parseFrame_incomplete data frame h
    rw [heq]
    exact ⟨fun _ hc => absurd hc h, fun _ => .inl rfl⟩

/-- An unmasked binary frame that declares 2^64 - 1 bytes of payload and carries none. -/
def wrappingFrame : Buffer where
  bytes := [0x82, 0x7F, 0xFF, 0xFF, 0xFF, 0xFF, 0xFF, 0xFF, 0xFF, 0xFF]
  size_le := by decide

/-- On those ten bytes the call throws. -/
theorem parseFrame_unsafe : ¬ ParseSafe wrappingFrame (parseFrame wrappingFrame {}) := by
  have h : parseFrame wrappingFrame {} = .error .lengthError := by rfl
  rw [h]
  exact id

end LoongNvr.Network
