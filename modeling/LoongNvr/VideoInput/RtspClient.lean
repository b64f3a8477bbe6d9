import LoongNvr.Core.Types
import Mathlib.Data.List.Basic

/-!
# Video input — RtspClient

What the client hands on of the packets it reads.  Demuxing and the bitstream filter are
libavformat's; a packet's times are in the time base of its stream.

* `lost`, `retry`, `connected`, `refused`: the parts of `TryReconnect`.
* `RtspSession.step`: the session, step by step.
-/

namespace LoongNvr.VideoInput
open LoongNvr.Core

/-- `AV_NOPTS_VALUE` -/
def avNoPts : ℤ := -9223372036854775808

/-- A packet of the demuxer or of the bitstream filter. -/
structure AVPacket where
  streamIndex : ℤ
  data : List UInt8
  pts : ℤ
  dts : ℤ
  isKey : Bool

/-- The unit of a stream's times: `num/den` seconds. -/
structure TimeBase where
  num : ℕ
  den : ℕ
  num_pos : 0 < num
  den_pos : 0 < den

/-- What `Connect` finds: the video stream, its codec and time base, and whether its packets go
through a bitstream filter. -/
structure VideoStream where
  index : ℤ
  codec : CodecType
  timeBase : TimeBase
  filtered : Bool := false

/-- The client of an open stream. -/
structure RtspClient where
  channelId : ℤ
  stream : VideoStream

/-- What the packet callback gets. -/
structure PacketArgs where
  channelId : ℤ
  data : List UInt8
  pts : ℤ
  dts : ℤ
  isKeyframe : Bool
  codec : CodecType

/-- The call of `packet_callback_` for a packet. -/
def RtspClient.deliver (client : RtspClient) (pkt : AVPacket) : PacketArgs where
  channelId := client.channelId
  data := pkt.data
  pts := pkt.pts -- in the stream's time base
  dts := pkt.dts
  isKeyframe := pkt.isKey
  codec := client.stream.codec

/-- `PullLoop` on a packet read: the packets delivered.  Where a bitstream filter is installed,
`filtered` is what it makes of the packet. -/
def RtspClient.pull (client : RtspClient) (pkt : AVPacket) (filtered : List AVPacket) :
    List AVPacket :=
  if pkt.streamIndex ≠ client.stream.index then []
  else if client.stream.filtered then filtered
  else [pkt]

/-! ### Sessions

An opened session of `RtspClient`, whose thread pulls the stream: `PullLoop`, which calls
`TryReconnect` when the stream is lost, and `Close` from another thread.  Each step is what the
thread does between two reads of `running_`; what the network answers comes with the step.
-/

/-- RTSP connection state. -/
inductive RtspConnectionState
  | disconnected
  | connecting
  | connected
  | reconnecting
  | error
  deriving DecidableEq, Repr

/-- What an RTSP client is configured with for the reconnection. -/
structure RtspClientConfig where
  autoReconnect : Bool := true
  maxReconnectAttempts : ℤ := 0
  reconnectDelayMs : ℤ := 3000
  reconnectMaxDelayMs : ℤ := 30000

/-- What is seen of a session from outside. -/
inductive Note
  | stateChanged (newState : RtspConnectionState) (message : String)
  | waiting (delayMs : ℤ)
  | connect (ok : Bool)
  | exceeded
  deriving DecidableEq, Repr

/-- Where the thread stands. -/
inductive Pull
  | entered
  | test
  | reading
  | retrying (delayMs : ℤ)
  | waiting (delayMs : ℤ)
  | connecting (delayMs : ℤ)
  | ended
  deriving DecidableEq, Repr

/-- What `av_read_frame` comes back with; at the end of a file, whether the seek to its beginning
succeeds. -/
inductive ReadResult
  | packet
  | eof (seeks : Bool)
  | failed

/-- A step of the thread, or of the one that closes the session. -/
inductive PullStep
  | alloc (ok : Bool)
  | test
  | read (result : ReadResult)
  | retry
  | wake
  | connect (isFileSource : Option Bool)
  | close
  | join

/-- A session: what `Open` leaves, with the notes, the newest first. -/
structure RtspSession where
  config : RtspClientConfig
  state : RtspConnectionState := .connected
  running : Bool := true
  reconnectAttempts : ℤ := 0
  isFileSource : Bool := false
  pull : Pull := .entered
  notes : List Note := []

namespace RtspSession

variable (s : RtspSession)

/-- `SetState` -/
def setState (newState : RtspConnectionState) (message : String := "") : RtspSession :=
  if s.state = newState then s
  else { s with state := newState, notes := .stateChanged newState message :: s.notes }

/-- The thread ends in an error. -/
def fail (message : String) : RtspSession := { s.setState .error message with pull := .ended }

/-- The read failed. -/
def lost : RtspSession :=
  if s.running ∧ s.config.autoReconnect then
    { s.setState .reconnecting with pull := .retrying s.config.reconnectDelayMs }
  else s.fail "Stream read failed"

/-- The next attempt is over the limit. -/
def exceeds : Bool :=
  s.config.maxReconnectAttempts > 0 ∧
    toInt32 (s.reconnectAttempts + 1) > s.config.maxReconnectAttempts

/-- The head of the loop of `TryReconnect`, up to the wait. -/
def retry (delayMs : ℤ) : RtspSession :=
  if s.running then
    let s' := { s with reconnectAttempts := toInt32 (s.reconnectAttempts + 1) }
    if s.exceeds then { s' with notes := .exceeded :: s.notes }.fail "Stream read failed"
    else { s' with pull := .waiting delayMs, notes := .waiting delayMs :: s.notes }
  else s.fail "Stream read failed"

/-- `Connect` succeeds. -/
def connected (isFileSource : Bool) : RtspSession :=
  let s' := { s with isFileSource := isFileSource, notes := .connect true :: s.notes }
  { s'.setState .connected "Reconnected" with pull := .test }

/-- The delay before the next attempt. -/
def backoff (delayMs : ℤ) : ℤ := min (toInt32 (delayMs * 2)) s.config.reconnectMaxDelayMs

/-- `Connect` fails. -/
def refused (delayMs : ℤ) : RtspSession :=
  { s with notes := .connect false :: s.notes, pull := .retrying (s.backoff delayMs) }

/-- The session after a step, if the step is one it can take. -/
def step (s : RtspSession) (a : PullStep) : RtspSession :=
  match s.pull, a with
  | .entered, .alloc true => { s with pull := .test }
  | .entered, .alloc false => s.fail "AVPacket allocation failed"
  | .test, .test => { s with pull := if s.running then .reading else .ended }
  | .reading, .read .packet => { s with pull := .test }
  | .reading, .read (.eof seeks) =>
      if s.isFileSource then
        if seeks then { s with pull := .test } else s.fail "File seek failed"
      else s.lost
  | .reading, .read .failed => s.lost
  | .retrying delayMs, .retry => s.retry delayMs
  | .waiting delayMs, .wake =>
      if s.running then { s with pull := .connecting delayMs } else s.fail "Stream read failed"
  | .connecting _, .connect (some isFileSource) => s.connected isFileSource
  | .connecting delayMs, .connect none => s.refused delayMs
  | _, .close => { s with running := false }
  | .ended, .join => if s.running then s else s.setState .disconnected
  | _, _ => s

end RtspSession

end LoongNvr.VideoInput
