import LoongNvr.Network.RtpPacketizer
import LoongNvr.Support.Keyed
import Mathlib.Data.List.DropRight

/-!
# Network — RtspServer

`RtspServer`: its channels, its sessions, and what the requests of a client and the frames pushed do
to a session.  A request handler and a `PushFrame` call are one step each.

* `RtspServer.step`: one of them; `none` where `PushFrame` calls a packetizer that is null.
* `handle_cases`: all that a request can do to its session.
* `pushFrame_of_skip`, `pushFrame_of_watches`: all that a frame can do to a session it reaches.
-/

namespace LoongNvr.Network
open Support LoongNvr.Core

/-! ### Requests -/

inductive RtspRequest
  | options
  | describe (url : String)
  | setup (url : String)
  | play
  | teardown
  | other
  deriving DecidableEq, Repr

namespace RtspServer

/-- What `operator>>` skips. -/
def isSpace (c : Char) : Bool := c ∈ [' ', '\t', '\n', '\x0b', '\x0c', '\r']

/-- `iss >> word`, and what is left. -/
def nextWord (s : List Char) : List Char × List Char :=
  (s.dropWhile isSpace).span (!isSpace ·)

/-- What `find_first_not_of` and `find_last_not_of` leave; a value of blanks stays. -/
def trim (s : List Char) : List Char :=
  let isBlank (c : Char) : Bool := c ∈ [' ', '\t', '\r', '\n']
  if s.all isBlank then s else (s.dropWhile isBlank).rdropWhile isBlank

/-- The value of the last `CSeq` header. -/
def parseCseq (lines : List (List Char)) : String :=
  lines.foldl (fun cseq line =>
    if "CSeq:".toList.isPrefixOf line then String.ofList (trim (line.drop 5)) else cseq) "0"

/-- A request, and the number its answer repeats. -/
def parseRequest (text : String) : RtspRequest × String :=
  let (method, rest) := nextWord text.toList
  let (url, rest) := nextWord rest
  let (_, rest) := nextWord rest
  let url := String.ofList url
  let request :=
    if method = "OPTIONS".toList then .options
    else if method = "DESCRIBE".toList then .describe url
    else if method = "SETUP".toList then .setup url
    else if method = "PLAY".toList then .play
    else if method = "TEARDOWN".toList then .teardown
    else .other
  (request, parseCseq (rest.splitOn '\n'))

/-- What comes behind the first `/live/ch`. -/
def afterLive : List Char → Option (List Char)
  | [] => none
  | c :: s => if "/live/ch".toList.isPrefixOf (c :: s) then some (s.drop 7) else afterLive s

/-- The channel a URL names, -1 if there is none or no `int` holds it. -/
def parseChannelId (url : String) : ℤ :=
  match (afterLive url.toList).map (·.takeWhile Char.isDigit) with
  | none | some [] => -1
  | some numStr =>
      let id := numStr.foldl (fun id c => 10 * id + (c.toNat - '0'.toNat)) 0
      if id < 2147483648 then id else -1

end RtspServer

/-! ### The server -/

structure ChannelInfo where
  codec : CodecType := .h264
  width : ℤ := 1920
  height : ℤ := 1080
  fps : ℤ := 25
  deriving DecidableEq, Repr

/-- What `PushFrame` is called with. -/
structure RtspFrame where
  data : List UInt8
  pts : ℤ
  isKeyframe : Bool
  deriving DecidableEq, Repr

/-- What happened to a session: the requests that changed it, and the frames sent to it. -/
inductive RtspEvent
  | setup (channelId : ℤ)
  | play
  | teardown
  | sent (channelId : ℤ) (isKeyframe : Bool) (packets : List (List UInt8))
  deriving DecidableEq, Repr

/-- A session, and what happened to it, the latest first, which no step reads. -/
structure RtspSession where
  channelId : ℤ := -1
  sessionId : String := ""
  playing : Bool := false
  active : Bool := true
  packetizer : Option RtpPacketizer := none
  gotKeyframe : Bool := false
  log : List RtspEvent := []
  deriving DecidableEq, Repr

/-- The sessions are all that were ever accepted, in order; the source drops a session from its
list when it is closed, and is no longer active. -/
structure RtspServer where
  host : String
  channels : Keyed ChannelInfo := .empty
  sessions : List RtspSession := []

namespace RtspServer

def registerChannel (channelId : ℤ) (info : ChannelInfo) (server : RtspServer) : RtspServer :=
  { server with channels := server.channels.put channelId info }

def unregisterChannel (channelId : ℤ) (server : RtspServer) : RtspServer :=
  { server with channels := server.channels.remove channelId }

/-- A connection. -/
def accept (server : RtspServer) : RtspServer :=
  { server with sessions := server.sessions ++ [{}] }

/-! ### Answers -/

def buildSdp (channelId : ℤ) (server : RtspServer) : String :=
  match server.channels.get channelId with
  | none => ""
  | some info =>
      let codecName := if info.codec = .h265 then "H265" else "H264"
      "v=0\r\n" ++ "o=- 0 0 IN IP4 " ++ server.host ++ "\r\n" ++
        "s=Loong AI NVR Channel " ++ toString channelId ++ "\r\n" ++ "c=IN IP4 0.0.0.0\r\n" ++
        "t=0 0\r\n" ++ "m=video 0 RTP/AVP 96\r\n" ++ "a=rtpmap:96 " ++ codecName ++ "/90000\r\n" ++
        "a=framerate:" ++ toString info.fps ++ "\r\n" ++ "a=control:trackID=0\r\n"

/-- An answer with its first line, `CSeq` and further lines. -/
def response (status cseq : String) (lines : List String) : String :=
  status ++ "\r\n" ++ "CSeq: " ++ cseq ++ "\r\n" ++
    String.join (lines.map (· ++ "\r\n")) ++ "\r\n"

def notFound (cseq : String) : String := response "RTSP/1.0 404 Not Found" cseq []

def handleOptions (cseq : String) : String :=
  response "RTSP/1.0 200 OK" cseq ["Public: OPTIONS, DESCRIBE, SETUP, PLAY, TEARDOWN"]

def handleDescribe (cseq url : String) (server : RtspServer) : String :=
  let sdp := server.buildSdp (parseChannelId url)
  if sdp = "" then notFound cseq
  else
    response "RTSP/1.0 200 OK" cseq
      ["Content-Type: application/sdp", "Content-Length: " ++ toString sdp.utf8ByteSize] ++ sdp

end RtspServer

namespace RtspSession
open RtspServer

/-- `newId` is what `GenerateSessionId` returns. -/
def handleSetup (server : RtspServer) (cseq url newId : String) (session : RtspSession) :
    RtspSession × String :=
  let channelId := parseChannelId url
  match server.channels.get channelId with
  | none => (session, notFound cseq)
  | some info =>
      ({ session with
          channelId := channelId
          sessionId := newId
          packetizer := some { codec := info.codec, channel := 0 }
          log := .setup channelId :: session.log },
        response "RTSP/1.0 200 OK" cseq
          ["Session: " ++ newId, "Transport: RTP/AVP/TCP;unicast;interleaved=0-1"])

def handlePlay (cseq : String) (session : RtspSession) : RtspSession × String :=
  ({ session with playing := true, gotKeyframe := false, log := .play :: session.log },
    response "RTSP/1.0 200 OK" cseq ["Session: " ++ session.sessionId, "Range: npt=0.000-"])

def handleTeardown (cseq : String) (session : RtspSession) : RtspSession × String :=
  ({ session with playing := false, active := false, log := .teardown :: session.log },
    response "RTSP/1.0 200 OK" cseq ["Session: " ++ session.sessionId])

/-- What `HandleClient` does with the text of one `recv`, and the answer it sends, if any. -/
def handle (server : RtspServer) (text newId : String) (session : RtspSession) :
    RtspSession × Option String :=
  if !session.active then (session, none)
  else
    let (request, cseq) := parseRequest text
    match request with
    | .options => (session, some (handleOptions cseq))
    | .describe url => (session, some (server.handleDescribe cseq url))
    | .setup url => (session.handleSetup server cseq url newId).map id some
    | .play => (session.handlePlay cseq).map id some
    | .teardown => (session.handleTeardown cseq).map id some
    | .other => (session, none)

/-- The end of `HandleClient`. -/
def close (session : RtspSession) : RtspSession :=
  { session with active := false, playing := false }

/-- What `PushFrame` does at one session; `none` if its packetizer is called and null. -/
def pushFrame (channelId : ℤ) (frame : RtspFrame) (session : RtspSession) : Option RtspSession :=
  if session.channelId ≠ channelId ∨ !session.playing ∨ !session.active then some session
  else if !session.gotKeyframe ∧ !frame.isKeyframe then some session
  else session.packetizer.map fun packetizer =>
    let (packetizer, packets) := packetizer.packetize frame.data frame.pts
    { session with
      gotKeyframe := true
      packetizer := some packetizer
      log := .sent channelId frame.isKeyframe packets :: session.log }

/-- Whether frames of a channel go to a session. -/
def Watches (channelId : ℤ) (session : RtspSession) : Prop :=
  session.channelId = channelId ∧ session.playing = true ∧ session.active = true

instance (channelId : ℤ) (session : RtspSession) : Decidable (session.Watches channelId) :=
  inferInstanceAs (Decidable (_ ∧ _))

/-- **A request** changes nothing, or sets the session up, plays it or tears it down. -/
theorem handle_cases (server : RtspServer) (text newId : String) (session : RtspSession) :
    (session.handle server text newId).1 = session ∨
    session.active = true ∧
      ((∃ channelId packetizer, (session.handle server text newId).1 =
        { session with
          channelId := channelId
          sessionId := newId
          packetizer := some packetizer
          log := .setup channelId :: session.log }) ∨
      (session.handle server text newId).1 =
        { session with playing := true, gotKeyframe := false, log := .play :: session.log } ∨
      (session.handle server text newId).1 =
        { session with playing := false, active := false, log := .teardown :: session.log }) := by
  by_cases hactive : session.active = true
  · rw [handle, if_neg (by simp [hactive])]
    dsimp only
    split
    · exact .inl rfl
    · exact .inl rfl
    · rename_i url _
      simp only [handleSetup]
      cases server.channels.get (parseChannelId url) with
      | none => exact .inl rfl
      | some info => exact .inr ⟨hactive, .inl ⟨_, _, rfl⟩⟩
    · exact .inr ⟨hactive, .inr (.inl rfl)⟩
    · exact .inr ⟨hactive, .inr (.inr rfl)⟩
    · exact .inl rfl
  · exact .inl (by simp [handle, hactive])

/-- A frame of a channel a session does not watch, or not a keyframe when it waits for one. -/
theorem pushFrame_of_skip {channelId : ℤ} {frame : RtspFrame} {session : RtspSession}
    (h : session.Watches channelId → session.gotKeyframe = false ∧ frame.isKeyframe = false) :
    session.pushFrame channelId frame = some session := by
  by_cases hwatch : session.Watches channelId
  · obtain ⟨hgot, hkey⟩ := h hwatch
    obtain ⟨hchannel, hplaying, hactive⟩ := hwatch
    simp [pushFrame, hchannel, hplaying, hactive, hgot, hkey]
  · refine if_pos ?_
    simp only [Watches, Bool.not_eq_eq_eq_not, Bool.not_true] at hwatch ⊢
    grind

/-- Any other frame is sent, if there is a packetizer. -/
theorem pushFrame_of_watches {channelId : ℤ} {frame : RtspFrame} {session : RtspSession}
    (hwatch : session.Watches channelId)
    (hkey : session.gotKeyframe = true ∨ frame.isKeyframe = true) :
    session.pushFrame channelId frame = session.packetizer.map fun packetizer =>
      { session with
        gotKeyframe := true
        packetizer := some (packetizer.packetize frame.data frame.pts).1
        log := .sent channelId frame.isKeyframe
          (packetizer.packetize frame.data frame.pts).2 :: session.log } := by
  obtain ⟨hchannel, hplaying, hactive⟩ := hwatch
  rcases hkey with hkey | hkey <;> simp [pushFrame, hchannel, hplaying, hactive, hkey]

end RtspSession

namespace RtspServer

def receive (client : ℕ) (text newId : String) (server : RtspServer) : RtspServer :=
  { server with
    sessions := server.sessions.modify client fun session =>
      (session.handle server text newId).1 }

def close (client : ℕ) (server : RtspServer) : RtspServer :=
  { server with sessions := server.sessions.modify client (·.close) }

def pushFrame (channelId : ℤ) (frame : RtspFrame) (server : RtspServer) : Option RtspServer :=
  (server.sessions.mapM (RtspSession.pushFrame channelId frame)).map fun sessions =>
    { server with sessions := sessions }

/-! ### Runs -/

inductive Action
  | registerChannel (channelId : ℤ) (info : ChannelInfo)
  | unregisterChannel (channelId : ℤ)
  | accept
  | receive (client : ℕ) (text newId : String)
  | close (client : ℕ)
  | pushFrame (channelId : ℤ) (frame : RtspFrame)

def act (server : RtspServer) : Action → Option RtspServer
  | .registerChannel channelId info => some (server.registerChannel channelId info)
  | .unregisterChannel channelId => some (server.unregisterChannel channelId)
  | .accept => some server.accept
  | .receive client text newId => some (server.receive client text newId)
  | .close client => some (server.close client)
  | .pushFrame channelId frame => server.pushFrame channelId frame

/-- A step, `none` being the call of a null packetizer. -/
def step (server : Option RtspServer) (action : Action) : Option RtspServer :=
  server.bind (·.act action)

end RtspServer

end LoongNvr.Network
