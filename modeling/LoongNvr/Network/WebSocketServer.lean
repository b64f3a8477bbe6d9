import LoongNvr.Network.WebSocketFrame
import LoongNvr.Support.Framing

/-!
# Network — WebSocketServer

`HandleClient` of `WebSocketServer`: the bytes of a connection appended to a buffer as they come,
the frames parsed off its front, and what is done with each.

* `readFrames`: the receive loop by itself.
* `readFrames_eq_feed`: it is the loop of `Framing` over `decoder`.
* `handleClient_eq`: until a close frame, the connection is what its frames make of it.
-/

namespace LoongNvr.Network
open Support

namespace WebSocketServer

/-! ### The buffer -/

def emptyBuffer : Buffer := ⟨[], Nat.zero_le _⟩

/-- `buffer.insert(buffer.end(), …)` -/
def insert (buffer : Buffer) (chunk : List UInt8) : Checked Buffer :=
  if h : (buffer.bytes ++ chunk).length ≤ ptrdiffMax then .ok ⟨buffer.bytes ++ chunk, h⟩
  else .error .lengthError

/-- `buffer.erase(buffer.begin(), buffer.begin() + consumed)` -/
def erase (buffer : Buffer) (consumed : UInt64) : Buffer where
  bytes := buffer.bytes.drop consumed.toNat
  size_le := by
    rw [List.length_drop]
    exact (Nat.sub_le _ _).trans buffer.size_le

theorem length_drop_lt {bytes : List UInt8} {consumed : UInt64} (h : bytes ≠ [])
    (hconsumed : consumed ≠ 0) : (bytes.drop consumed.toNat).length < bytes.length := by
  have hpos : 0 < consumed.toNat := Nat.pos_of_ne_zero fun hzero =>
    hconsumed (UInt64.toNat_inj.mp hzero)
  rw [List.length_drop]
  exact Nat.sub_lt (List.length_pos_iff.mpr h) hpos

/-! ### The receive loop -/

/-- The frames parsed off the front, and what is left. -/
def parseFrames (buffer : Buffer) : Checked (List WsFrame × Buffer) :=
  if buffer.bytes = [] then .ok ([], buffer)
  else
    match parseFrame buffer {} with
    | .error fault => .error fault
    | .ok (consumed, frame) =>
        if consumed = 0 then .ok ([], buffer)
        else (parseFrames (erase buffer consumed)).map fun out => (frame :: out.1, out.2)
  termination_by buffer.bytes.length
  decreasing_by exact length_drop_lt ‹_› ‹_›

/-- Chunk after chunk. -/
def readFrames : Buffer → List (List UInt8) → Checked (List WsFrame × Buffer)
  | buffer, [] => .ok ([], buffer)
  | buffer, chunk :: chunks => do
      let buffer ← insert buffer chunk
      let (frames, buffer) ← parseFrames buffer
      let (more, buffer) ← readFrames buffer chunks
      return (frames ++ more, buffer)

/-! ### Frames -/

/-- A connection, and the frames sent to it. -/
structure WsConnection where
  subscribedTopics : List String := []
  active : Bool := true
  sent : List (List UInt8) := []
  deriving DecidableEq, Repr

def sendFrame (frame : List UInt8) (conn : WsConnection) : WsConnection :=
  if conn.active then { conn with sent := conn.sent ++ [frame] } else conn

/-- `subscription` are the topics after a text message; `none` if it leaves them as they are. -/
def handleFrame (subscription : List UInt8 → Option (List String)) (conn : WsConnection)
    (frame : WsFrame) : WsConnection :=
  match frame.opcode with
  | .text =>
      match subscription frame.payload with
      | some topics => { conn with subscribedTopics := topics }
      | none => conn
  | .ping => sendFrame (buildPongFrame frame.payload) conn
  | .close => { sendFrame (buildCloseFrame 1000) conn with active := false }
  | _ => conn

/-- One `recv`. -/
def receive (subscription : List UInt8 → Option (List String)) (state : WsConnection × Buffer)
    (chunk : List UInt8) : Checked (WsConnection × Buffer) :=
  if !state.1.active then return state
  else do
    let buffer ← insert state.2 chunk
    let (frames, buffer) ← parseFrames buffer
    return (frames.foldl (handleFrame subscription) state.1, buffer)

def handleClient (subscription : List UInt8 → Option (List String)) (conn : WsConnection)
    (buffer : Buffer) (chunks : List (List UInt8)) : Checked (WsConnection × Buffer) :=
  chunks.foldlM (receive subscription) (conn, buffer)

/-- Only a close frame ends a connection. -/
theorem active_foldl (subscription : List UInt8 → Option (List String)) {frames : List WsFrame}
    (hclose : ∀ frame ∈ frames, frame.opcode ≠ .close) (conn : WsConnection) :
    (frames.foldl (handleFrame subscription) conn).active = conn.active := by
  induction frames generalizing conn with
  | nil => rfl
  | cons frame frames ih =>
      obtain ⟨hframe, hframes⟩ := List.forall_mem_cons.mp hclose
      rw [List.foldl_cons, ih hframes, handleFrame]
      split
      · split <;> rfl
      · rw [sendFrame]
        split <;> rfl
      · exact absurd ‹_› hframe
      · rfl

/-- What the loop did if it did not throw. -/
theorem readFrames_cons_eq_ok {buffer rest : Buffer} {chunk : List UInt8}
    {chunks : List (List UInt8)} {frames : List WsFrame}
    (h : readFrames buffer (chunk :: chunks) = .ok (frames, rest)) :
    ∃ held first left more, insert buffer chunk = .ok held ∧
      parseFrames held = .ok (first, left) ∧ readFrames left chunks = .ok (more, rest) ∧
      frames = first ++ more := by
  rw [readFrames] at h
  cases hinsert : insert buffer chunk with
  | error fault => simp [hinsert, bind, Except.bind] at h
  | ok held =>
      cases hparse : parseFrames held with
      | error fault => simp [hinsert, hparse, bind, Except.bind] at h
      | ok out =>
          cases hmore : readFrames out.2 chunks with
          | error fault => simp [hinsert, hparse, hmore, bind, Except.bind] at h
          | ok more =>
              simp only [hinsert, hparse, hmore, bind, Except.bind] at h
              obtain ⟨rfl, rfl⟩ := Prod.mk.inj (Except.ok.inj h)
              exact ⟨held, out.1, out.2, more.1, rfl, hparse, hmore, rfl⟩

theorem receive_eq {subscription : List UInt8 → Option (List String)} {conn : WsConnection}
    (hactive : conn.active = true) {buffer held left : Buffer} {chunk : List UInt8}
    {frames : List WsFrame} (hinsert : insert buffer chunk = .ok held)
    (hparse : parseFrames held = .ok (frames, left)) :
    receive subscription (conn, buffer) chunk =
      .ok (frames.foldl (handleFrame subscription) conn, left) := by
  simp only [receive, hactive, hinsert, hparse, bind, Except.bind]
  rfl

/-- **Without a close frame** the connection reads on to the end, and each frame is handled. -/
theorem handleClient_eq {subscription : List UInt8 → Option (List String)} {conn : WsConnection}
    (hactive : conn.active = true) {buffer rest : Buffer} {chunks : List (List UInt8)}
    {frames : List WsFrame} (hread : readFrames buffer chunks = .ok (frames, rest))
    (hclose : ∀ frame ∈ frames, frame.opcode ≠ .close) :
    handleClient subscription conn buffer chunks =
      .ok (frames.foldl (handleFrame subscription) conn, rest) := by
  induction chunks generalizing conn buffer frames with
  | nil =>
      obtain ⟨rfl, rfl⟩ := Prod.mk.inj (Except.ok.inj hread)
      rfl
  | cons chunk chunks ih =>
      obtain ⟨held, first, left, more, hinsert, hparse, hmore, rfl⟩ := readFrames_cons_eq_ok hread
      have hfirst : ∀ frame ∈ first, frame.opcode ≠ .close := fun frame hframe =>
        hclose frame (List.mem_append_left _ hframe)
      have hlater : ∀ frame ∈ more, frame.opcode ≠ .close := fun frame hframe =>
        hclose frame (List.mem_append_right _ hframe)
      have hstill := (active_foldl subscription hfirst conn).trans hactive
      rw [handleClient, List.foldlM_cons, receive_eq hactive hinsert hparse, List.foldl_append]
      exact ih hstill hmore hlater

/-! ### The loop as a stream decoder -/

def decoder : Decoder UInt8 WsFrame Fault where
  next bytes :=
    if bytes = [] then .ok none
    else if h : bytes.length ≤ ptrdiffMax then
      (parseFrame ⟨bytes, h⟩ {}).map fun out =>
        if out.1 = 0 then none else some (out.2, bytes.drop out.1.toNat)
    else .error .lengthError
  next_nil := rfl
  shrinks := by
    intro bytes frame rest h
    split at h
    · exact absurd h (by simp)
    · rename_i hnonempty
      split at h
      · obtain ⟨⟨consumed, parsed⟩, -, hsome⟩ := map_eq_ok_iff.mp h
        dsimp only at hsome
        split at hsome
        · exact absurd hsome (by simp)
        · obtain ⟨-, rfl⟩ := Prod.mk.inj (Option.some.inj hsome)
          exact length_drop_lt hnonempty ‹_›
      · exact absurd h (by simp)

theorem next_eq {buffer : Buffer} (h : buffer.bytes ≠ []) :
    decoder.next buffer.bytes = (parseFrame buffer {}).map fun out =>
      if out.1 = 0 then none else some (out.2, buffer.bytes.drop out.1.toNat) := by
  show (if _ then _ else _) = _
  rw [if_neg h, dif_pos buffer.size_le]

theorem parseFrames_eq_drain (buffer : Buffer) :
    (parseFrames buffer).map (fun out => (out.1, out.2.bytes)) = decoder.drain buffer.bytes := by
  fun_induction parseFrames buffer with
  | case1 buffer hempty =>
      have hnone : decoder.next buffer.bytes = .ok none := by rw [hempty, decoder.next_nil]
      rw [Decoder.drain_of_none hnone]
      rfl
  | case2 buffer hnonempty fault hparse =>
      have herror : decoder.next buffer.bytes = .error fault := by
        rw [next_eq hnonempty, hparse]
        rfl
      rw [Decoder.drain_of_error herror]
      rfl
  | case3 buffer hnonempty frame hparse =>
      have hnone : decoder.next buffer.bytes = .ok none := by
        rw [next_eq hnonempty, hparse]
        rfl
      rw [Decoder.drain_of_none hnone]
      rfl
  | case4 buffer hnonempty consumed frame hparse hconsumed ih =>
      have hsome : decoder.next buffer.bytes =
          .ok (some (frame, (erase buffer consumed).bytes)) := by
        rw [next_eq hnonempty, hparse]
        exact congrArg Except.ok (if_neg hconsumed)
      rw [Decoder.drain_of_some hsome, ← ih]
      cases parseFrames (erase buffer consumed) <;> rfl

/-- **The receive loop** is the loop of a stream decoder over a buffer of limited size. -/
theorem readFrames_eq_feed (buffer : Buffer) (chunks : List (List UInt8)) :
    (readFrames buffer chunks).map (fun out => (out.1, out.2.bytes)) =
      decoder.feed ptrdiffMax .lengthError buffer.bytes chunks := by
  induction chunks generalizing buffer with
  | nil => rfl
  | cons chunk chunks ih =>
      rw [readFrames, Decoder.feed, insert]
      by_cases hfits : (buffer.bytes ++ chunk).length ≤ ptrdiffMax
      · rw [dif_pos hfits, if_neg (Nat.not_lt.mpr hfits)]
        have hdrain := parseFrames_eq_drain ⟨buffer.bytes ++ chunk, hfits⟩
        rw [← hdrain]
        simp only [bind, Except.bind, Except.map]
        cases parseFrames ⟨buffer.bytes ++ chunk, hfits⟩ with
        | error fault => rfl
        | ok out =>
            have hmore := ih out.2
            simp only [← hmore]
            cases readFrames out.2 chunks <;> rfl
      · rw [dif_neg hfits, if_pos (Nat.not_le.mp hfits)]
        rfl

end WebSocketServer

end LoongNvr.Network
