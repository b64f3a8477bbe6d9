import LoongNvr.Core.Types
import Mathlib.Data.List.AList

/-!
# Network — WebRtcService

The sessions of `WebRtcService`, one for each WebRTC viewer.  `HandleOffer` holds the mutex for its
check and for its insertion only, so the calls under way are part of the state, each where it is
between two calls of the peer-connection library; every other call that holds the mutex throughout
is one step.  How a call of the library ends is up to the library: it is part of the action.

* `handleOffer` to `storeSession`: the steps of `HandleOffer`.
* `closeSession`, `cleanup`, `collectSessions`, `closeNext`: what ends sessions.
* `handleIceCandidateInternal`, `onConnectionStateChangeInternal`: the library's callbacks.
* `lookup_cleanup`: what a pass of `CleanupLoop` leaves.
-/

namespace LoongNvr.Network
open LoongNvr.Core (toInt32)

inductive WebRtcSessionState
  | new
  | connecting
  | connected
  | disconnected
  | failed
  | closed
  deriving DecidableEq, Repr

/-- `RTC_PEER_CONNECTION_STATE`, as far as the service tells the states apart. -/
inductive RtcPeerConnectionState
  | connected
  | disconnected
  | failed
  | closed
  | other (value : ℕ)
  deriving DecidableEq, Repr

structure WebRtcConfig where
  maxSessions : ℤ := 16
  iceTimeoutSec : ℤ := 10
  deriving DecidableEq, Repr

/-- A session for one viewer.  Its handles are numbers, and null is `none`. -/
structure WebRtcSession where
  channelId : ℤ
  state : WebRtcSessionState
  peerConnection : Option ℕ
  videoTransceiver : Option ℕ
  createdAt : ℤ
  lastActivity : ℤ
  pendingAnswerSdp : String
  pendingIceCandidates : List String := []
  deriving DecidableEq, Repr

/-- What a `HandleOffer` call has once it has a peer connection. -/
structure Offer where
  channelId : ℤ
  sessionId : String
  pc : ℕ
  deriving DecidableEq, Repr

/-- How far a `HandleOffer` call is, and at the end the answer and the session id it gives. -/
inductive OfferCall
  | checked (channelId : ℤ)
  | created (offer : Offer)
  | transceiverAdded (offer : Offer) (videoTransceiver : ℕ)
  | remoteSet (offer : Offer) (videoTransceiver : ℕ)
  | answered (offer : Offer) (videoTransceiver : ℕ) (answerSdp : String)
  | localSet (offer : Offer) (videoTransceiver : ℕ) (answerSdp : String)
  | returned (answerSdp outSessionId : String)
  deriving DecidableEq, Repr

/-- `return "";` -/
def OfferCall.refused : OfferCall := .returned "" ""

def OfferCall.offer : OfferCall → Option Offer
  | .checked _ | .returned _ _ => none
  | .created offer => some offer
  | .transceiverAdded offer _ | .remoteSet offer _ => some offer
  | .answered offer _ _ | .localSet offer _ _ => some offer

/-- The peer connection a call has to store or to free. -/
def OfferCall.pc (call : OfferCall) : Option ℕ := call.offer.map (·.pc)

/-- The service, its `HandleOffer` calls in the order they came, what its `CloseSessionsForChannel`
calls have still to close, and how many handles the library has made and which were freed. -/
structure WebRtcService where
  config : WebRtcConfig
  initialized : Bool := true
  sessions : AList (fun _ : String => WebRtcSession) := ∅
  offers : List OfferCall := []
  closers : List (List String) := []
  peerConnections : ℕ := 0
  freedPeerConnections : List ℕ := []
  transceivers : ℕ := 0
  freedTransceivers : List ℕ := []

namespace WebRtcService

def freePeerConnection (pc : ℕ) (s : WebRtcService) : WebRtcService :=
  { s with freedPeerConnections := s.freedPeerConnections ++ [pc] }

def freeTransceiver (videoTransceiver : ℕ) (s : WebRtcService) : WebRtcService :=
  { s with freedTransceivers := s.freedTransceivers ++ [videoTransceiver] }

/-! ### HandleOffer -/

/-- Call `i` gets to `call`. -/
def goOn (i : ℕ) (call : OfferCall) (s : WebRtcService) : WebRtcService :=
  { s with offers := s.offers.set i call }

/-- A new call, up to the check of the capacity. -/
def handleOffer (channelId : ℤ) (s : WebRtcService) : WebRtcService :=
  if !s.initialized then { s with offers := s.offers ++ [.refused] }
  else if toInt32 s.sessions.keys.length ≥ s.config.maxSessions then
    { s with offers := s.offers ++ [.refused] }
  else { s with offers := s.offers ++ [.checked channelId] }

/-- `createPeerConnection`, and the callbacks, which know the session by its generated id. -/
def createPeerConnection (i : ℕ) (sessionId : String) (succeeds : Bool) (s : WebRtcService) :
    WebRtcService :=
  match s.offers[i]? with
  | some (.checked channelId) =>
      if succeeds then
        { s with peerConnections := s.peerConnections + 1 }.goOn i
          (.created ⟨channelId, sessionId, s.peerConnections⟩)
      else s.goOn i .refused
  | _ => s

def addTransceiver (i : ℕ) (succeeds : Bool) (s : WebRtcService) : WebRtcService :=
  match s.offers[i]? with
  | some (.created offer) =>
      if succeeds then
        { s with transceivers := s.transceivers + 1 }.goOn i
          (.transceiverAdded offer s.transceivers)
      else (s.freePeerConnection offer.pc).goOn i .refused
  | _ => s

/-- The exits of a call that has a transceiver. -/
def giveUp (i : ℕ) (offer : Offer) (videoTransceiver : ℕ) (s : WebRtcService) : WebRtcService :=
  ((s.freeTransceiver videoTransceiver).freePeerConnection offer.pc).goOn i .refused

def setRemoteDescription (i : ℕ) (succeeds : Bool) (s : WebRtcService) : WebRtcService :=
  match s.offers[i]? with
  | some (.transceiverAdded offer videoTransceiver) =>
      if succeeds then s.goOn i (.remoteSet offer videoTransceiver)
      else s.giveUp i offer videoTransceiver
  | _ => s

/-- `createAnswer`: the answer, or `none` if it fails. -/
def createAnswer (i : ℕ) (answerSdp : Option String) (s : WebRtcService) : WebRtcService :=
  match s.offers[i]? with
  | some (.remoteSet offer videoTransceiver) =>
      match answerSdp with
      | some answerSdp => s.goOn i (.answered offer videoTransceiver answerSdp)
      | none => s.giveUp i offer videoTransceiver
  | _ => s

def setLocalDescription (i : ℕ) (succeeds : Bool) (s : WebRtcService) : WebRtcService :=
  match s.offers[i]? with
  | some (.answered offer videoTransceiver answerSdp) =>
      if succeeds then s.goOn i (.localSet offer videoTransceiver answerSdp)
      else s.giveUp i offer videoTransceiver
  | _ => s

/-- The session a call stores. -/
def newSession (offer : Offer) (videoTransceiver : ℕ) (answerSdp : String) (now : ℤ) :
    WebRtcSession where
  channelId := offer.channelId
  state := .connecting
  peerConnection := some offer.pc
  videoTransceiver := some videoTransceiver
  createdAt := now
  lastActivity := now
  pendingAnswerSdp := answerSdp

/-- `sessions_[session_id] = session;` and the return. -/
def storeSession (i : ℕ) (now : ℤ) (s : WebRtcService) : WebRtcService :=
  match s.offers[i]? with
  | some (.localSet offer videoTransceiver answerSdp) =>
      { s with
        sessions := s.sessions.insert offer.sessionId
          (newSession offer videoTransceiver answerSdp now) }.goOn i
        (.returned answerSdp offer.sessionId)
  | _ => s

/-! ### Ends of sessions -/

/-- What the session has is freed, and it is erased. -/
def destroy (sessionId : String) (session : WebRtcSession) (s : WebRtcService) : WebRtcService :=
  { s with
    freedTransceivers := s.freedTransceivers ++ session.videoTransceiver.toList
    freedPeerConnections := s.freedPeerConnections ++ session.peerConnection.toList
    sessions := s.sessions.erase sessionId }

def closeSession (sessionId : String) (s : WebRtcService) : WebRtcService × Bool :=
  match s.sessions.lookup sessionId with
  | none => (s, false)
  | some session => (s.destroy sessionId session, true)

/-- The ids of the sessions with a property. -/
def idsWith (p : WebRtcSession → Bool) (s : WebRtcService) : List String :=
  (s.sessions.entries.filter fun entry => p entry.2).map (·.1)

/-- The first loop of `CloseSessionsForChannel`. -/
def collectSessions (channelId : ℤ) (s : WebRtcService) : WebRtcService :=
  { s with closers := s.closers ++ [s.idsWith (·.channelId = channelId)] }

/-- One round of the second loop of the `j`-th call. -/
def closeNext (j : ℕ) (s : WebRtcService) : WebRtcService :=
  match s.closers[j]? with
  | some (id :: toClose) =>
      (({ s with closers := s.closers.set j toClose } : WebRtcService).closeSession id).1
  | _ => s

def timeoutMs (config : WebRtcConfig) : ℤ := config.iceTimeoutSec * 1000 * 6

def stale (config : WebRtcConfig) (now : ℤ) (session : WebRtcSession) : Bool :=
  now - session.lastActivity > timeoutMs config

def failed (session : WebRtcSession) : Bool :=
  session.state = .failed ∨ session.state = .closed

/-- One pass of `CleanupLoop`.  Its second loop does at each id what `CloseSession` does. -/
def cleanup (now : ℤ) (s : WebRtcService) : WebRtcService :=
  let toRemove := s.idsWith fun session => stale s.config now session || failed session
  toRemove.foldl (fun s id => (s.closeSession id).1) s

def shutdown (s : WebRtcService) : WebRtcService :=
  { s with
    freedTransceivers :=
      s.freedTransceivers ++ s.sessions.entries.flatMap (·.2.videoTransceiver.toList)
    freedPeerConnections :=
      s.freedPeerConnections ++ s.sessions.entries.flatMap (·.2.peerConnection.toList)
    sessions := ∅
    initialized := false }

/-! ### What happens to a session -/

/-- `sessions_.find(session_id)`, and an update of what was found. -/
def modifySession (sessionId : String) (f : WebRtcSession → WebRtcSession) (s : WebRtcService) :
    WebRtcService :=
  match s.sessions.lookup sessionId with
  | none => s
  | some session => { s with sessions := s.sessions.insert sessionId (f session) }

def handleIceCandidate (sessionId : String) (now : ℤ) (added : Bool) (s : WebRtcService) :
    WebRtcService × Bool :=
  (s.modifySession sessionId fun session => { session with lastActivity := now },
    (s.sessions.lookup sessionId).isSome && added)

/-- The ids of the sessions `WriteVideoFrame` writes to. -/
def writeVideoFrame (channelId : ℤ) (s : WebRtcService) : List String :=
  if !s.initialized then []
  else s.idsWith fun session =>
    session.channelId = channelId ∧ session.state = .connected ∧ session.videoTransceiver ≠ none

def handleIceCandidateInternal (sessionId candidate : String) (s : WebRtcService) :
    WebRtcService :=
  if candidate = "" then s
  else s.modifySession sessionId fun session =>
    { session with pendingIceCandidates := session.pendingIceCandidates ++ [candidate] }

/-- The `switch` over the new state; `none` is its `default`. -/
def sessionState : RtcPeerConnectionState → Option WebRtcSessionState
  | .connected => some .connected
  | .disconnected => some .disconnected
  | .failed => some .failed
  | .closed => some .closed
  | .other _ => none

def onConnectionStateChangeInternal (sessionId : String) (newState : RtcPeerConnectionState)
    (now : ℤ) (s : WebRtcService) : WebRtcService :=
  s.modifySession sessionId fun session =>
    { session with state := (sessionState newState).getD session.state, lastActivity := now }

/-! ### Steps -/

/-- An action, with the times it reads and how the library's calls end. -/
inductive Action
  | handleOffer (channelId : ℤ)
  | createPeerConnection (i : ℕ) (sessionId : String) (succeeds : Bool)
  | addTransceiver (i : ℕ) (succeeds : Bool)
  | setRemoteDescription (i : ℕ) (succeeds : Bool)
  | createAnswer (i : ℕ) (answerSdp : Option String)
  | setLocalDescription (i : ℕ) (succeeds : Bool)
  | storeSession (i : ℕ) (now : ℤ)
  | handleIceCandidate (sessionId : String) (now : ℤ) (added : Bool)
  | iceCandidate (sessionId candidate : String)
  | stateChange (sessionId : String) (newState : RtcPeerConnectionState) (now : ℤ)
  | writeVideoFrame (channelId now : ℤ) (written : List String)
  | closeSession (sessionId : String)
  | collectSessions (channelId : ℤ)
  | closeNext (j : ℕ)
  | cleanup (now : ℤ)
  | shutdown
  deriving DecidableEq, Repr

/-- The running service, with no session yet. -/
def start (config : WebRtcConfig) : WebRtcService := { config := config }

def step (s : WebRtcService) : Action → WebRtcService
  | .handleOffer channelId => s.handleOffer channelId
  | .createPeerConnection i sessionId succeeds => s.createPeerConnection i sessionId succeeds
  | .addTransceiver i succeeds => s.addTransceiver i succeeds
  | .setRemoteDescription i succeeds => s.setRemoteDescription i succeeds
  | .createAnswer i answerSdp => s.createAnswer i answerSdp
  | .setLocalDescription i succeeds => s.setLocalDescription i succeeds
  | .storeSession i now => s.storeSession i now
  | .handleIceCandidate sessionId now added => (s.handleIceCandidate sessionId now added).1
  | .iceCandidate sessionId candidate => s.handleIceCandidateInternal sessionId candidate
  | .stateChange sessionId newState now =>
      s.onConnectionStateChangeInternal sessionId newState now
  -- a write changes nothing in the service
  | .writeVideoFrame _ _ _ => s
  | .closeSession sessionId => (s.closeSession sessionId).1
  | .collectSessions channelId => s.collectSessions channelId
  | .closeNext j => s.closeNext j
  | .cleanup now => s.cleanup now
  | .shutdown => s.shutdown

variable {s : WebRtcService} {id : String} {now : ℤ}

/-! ### What a step is -/

/-- A new call has no peer connection yet. -/
theorem handleOffer_eq (s : WebRtcService) (channelId : ℤ) :
    ∃ call : OfferCall, call.pc = none ∧
      s.handleOffer channelId = { s with offers := s.offers ++ [call] } := by
  rw [handleOffer]
  split
  · exact ⟨.refused, rfl, rfl⟩
  · split
    · exact ⟨.refused, rfl, rfl⟩
    · exact ⟨.checked channelId, rfl, rfl⟩

/-- A call has a session to store, or nothing happens. -/
theorem storeSession_cases (s : WebRtcService) (i : ℕ) (now : ℤ) :
    (∃ offer videoTransceiver answerSdp,
      s.offers[i]? = some (.localSet offer videoTransceiver answerSdp)) ∨
    (∀ offer videoTransceiver answerSdp,
      s.offers[i]? ≠ some (.localSet offer videoTransceiver answerSdp)) ∧
      s.storeSession i now = s := by
  rw [storeSession]
  split
  · rename_i offer videoTransceiver answerSdp hcall
    exact .inl ⟨offer, videoTransceiver, answerSdp, hcall⟩
  · rename_i hnone
    exact .inr ⟨hnone, rfl⟩

theorem modifySession_eq (s : WebRtcService) (id : String)
    (f : WebRtcSession → WebRtcSession) :
    ∃ sessions, s.modifySession id f = { s with sessions := sessions } := by
  rw [modifySession]
  split
  · exact ⟨s.sessions, rfl⟩
  · exact ⟨_, rfl⟩

/-! ### Sessions, one by one -/

theorem mem_idsWith {p : WebRtcSession → Bool} :
    id ∈ s.idsWith p ↔ ∃ session, s.sessions.lookup id = some session ∧ p session = true := by
  simp only [idsWith, List.mem_map, List.mem_filter]
  constructor
  · rintro ⟨⟨id', session⟩, ⟨hmem, hp⟩, rfl⟩
    exact ⟨session, AList.mem_lookup_iff.mpr hmem, hp⟩
  · rintro ⟨session, hlookup, hp⟩
    exact ⟨⟨id, session⟩, ⟨AList.mem_lookup_iff.mp hlookup, hp⟩, rfl⟩

theorem lookup_closeSession (id' : String) :
    (s.closeSession id').1.sessions.lookup id =
      if id = id' then none else s.sessions.lookup id := by
  cases h : s.sessions.lookup id' with
  | none =>
      simp only [closeSession, h]
      split
      · rename_i e
        exact e ▸ h
      · rfl
  | some session =>
      simp only [closeSession, h, destroy]
      split
      · rename_i e
        rw [e, AList.lookup_erase]
      · rename_i e
        rw [AList.lookup_erase_ne e]

theorem lookup_closeEach (ids : List String) :
    (ids.foldl (fun s id => (s.closeSession id).1) s).sessions.lookup id =
      if id ∈ ids then none else s.sessions.lookup id := by
  induction ids generalizing s with
  | nil => simp
  | cons id' ids ih =>
      rw [List.foldl_cons, ih, lookup_closeSession]
      by_cases hmem : id ∈ ids
      · simp [hmem]
      · simp [hmem]

/-- **A pass** takes away the stale sessions and the failed ones. -/
theorem lookup_cleanup (s : WebRtcService) (id : String) (now : ℤ) :
    (s.cleanup now).sessions.lookup id =
      (s.sessions.lookup id).filter fun session =>
        !(stale s.config now session || failed session) := by
  simp only [cleanup, lookup_closeEach, mem_idsWith]
  cases h : s.sessions.lookup id with
  | none => simp
  | some session =>
      rw [Option.filter_some]
      cases hgo : stale s.config now session || failed session with
      | true => rw [if_pos ⟨session, rfl, hgo⟩]; rfl
      | false =>
          refine if_neg ?_
          rintro ⟨session', e, hgo'⟩
          obtain rfl := Option.some.inj e
          rw [hgo] at hgo'
          cases hgo'

theorem lookup_modifySession (id' : String) (f : WebRtcSession → WebRtcSession) :
    (s.modifySession id' f).sessions.lookup id =
      if id = id' then (s.sessions.lookup id).map f else s.sessions.lookup id := by
  cases h : s.sessions.lookup id' with
  | none =>
      simp only [modifySession, h]
      split
      · rename_i e
        rw [e, h, Option.map_none]
      · rfl
  | some session =>
      simp only [modifySession, h]
      split
      · rename_i e
        rw [e, AList.lookup_insert, h, Option.map_some]
      · rename_i e
        rw [AList.lookup_insert_ne e]

/-- What takes sessions away. -/
def Action.Ends : Action → Prop
  | .closeSession _ | .closeNext _ | .cleanup _ | .shutdown => True
  | _ => False

/-- What is about the session of an id. -/
def Touches (s : WebRtcService) (id : String) : Action → Prop
  | .storeSession i _ => ∃ offer videoTransceiver answerSdp,
      s.offers[i]? = some (.localSet offer videoTransceiver answerSdp) ∧ offer.sessionId = id
  | .handleIceCandidate id' _ _ | .stateChange id' _ _ => id' = id
  | .iceCandidate id' candidate => id' = id ∧ candidate ≠ ""
  | _ => False

/-- All that an action can do to the session of an id. -/
inductive SessionStep (s : WebRtcService) (id : String) :
    Action → Option WebRtcSession → Option WebRtcSession → Prop
  | kept {a : Action} {o : Option WebRtcSession} (quiet : o = none ∨ ¬ Touches s id a) :
      SessionStep s id a o o
  | stored {i : ℕ} {now : ℤ} {offer : Offer} {videoTransceiver : ℕ} {answerSdp : String}
      {o : Option WebRtcSession}
      (found : s.offers[i]? = some (.localSet offer videoTransceiver answerSdp))
      (named : offer.sessionId = id) :
      SessionStep s id (.storeSession i now) o
        (some (newSession offer videoTransceiver answerSdp now))
  | touched {now : ℤ} {added : Bool} {session : WebRtcSession} :
      SessionStep s id (.handleIceCandidate id now added) (some session)
        (some { session with lastActivity := now })
  | gathered {candidate : String} {session : WebRtcSession} (nonempty : candidate ≠ "") :
      SessionStep s id (.iceCandidate id candidate) (some session)
        (some { session with
          pendingIceCandidates := session.pendingIceCandidates ++ [candidate] })
  | changed {newState : RtcPeerConnectionState} {now : ℤ} {session : WebRtcSession} :
      SessionStep s id (.stateChange id newState now) (some session)
        (some { session with
          state := (sessionState newState).getD session.state, lastActivity := now })
  | removed {a : Action} {session : WebRtcSession} (ends : a.Ends) :
      SessionStep s id a (some session) none

/-- A step whose session is as before, or gone. -/
theorem SessionStep.of_gone {a : Action} {o : Option WebRtcSession} {p : Prop} [Decidable p]
    (h : a.Ends) : SessionStep s id a o (if p then none else o) := by
  have hquiet : ¬ Touches s id a := by
    intro htouches
    cases a with
    | closeSession | closeNext | cleanup | shutdown => exact htouches
    | _ => exact h
  split
  · cases o with
    | none => exact .kept (.inr hquiet)
    | some session => exact .removed h
  · exact .kept (.inr hquiet)

/-- What an update does, if it is of this session. -/
theorem SessionStep.of_modified {a : Action} {id' : String} {f : WebRtcSession → WebRtcSession}
    {o : Option WebRtcSession}
    (h : id = id' → ∀ session, SessionStep s id a (some session) (some (f session)))
    (hquiet : id ≠ id' → ¬ Touches s id a) :
    SessionStep s id a o (if id = id' then o.map f else o) := by
  split
  · rename_i e
    cases o with
    | none => exact .kept (.inl rfl)
    | some session => exact h e session
  · rename_i e
    exact .kept (.inr (hquiet e))

/-! ### Offers -/

/-- All that a `HandleOffer` call does before it stores its session. -/
inductive OfferStep (s : WebRtcService) (i : ℕ) : WebRtcService → Prop
  | idle : OfferStep s i s
  | created {channelId : ℤ} {sessionId : String}
      (found : s.offers[i]? = some (.checked channelId)) :
      OfferStep s i ({ s with peerConnections := s.peerConnections + 1 }.goOn i
        (.created ⟨channelId, sessionId, s.peerConnections⟩))
  | wentOn {call call' : OfferCall} {transceivers : ℕ} (found : s.offers[i]? = some call)
      (same : call'.offer = call.offer) (past : ∀ channelId, call' ≠ .checked channelId) :
      OfferStep s i ({ s with transceivers := transceivers }.goOn i call')
  | gaveUp {call : OfferCall} {freedTransceivers : List ℕ} (found : s.offers[i]? = some call) :
      OfferStep s i ({ s with
        freedTransceivers := freedTransceivers
        freedPeerConnections := s.freedPeerConnections ++ call.pc.toList }.goOn i .refused)

/-- The call a step is of. -/
def Action.offer : Action → Option ℕ
  | .createPeerConnection i _ _ | .addTransceiver i _ | .setRemoteDescription i _
  | .createAnswer i _ | .setLocalDescription i _ => some i
  | _ => none

theorem offerStep {a : Action} {i : ℕ} (ha : a.offer = some i) : OfferStep s i (step s a) := by
  cases a with
  | createPeerConnection j sessionId succeeds =>
      obtain rfl := Option.some.inj ha
      simp only [step, createPeerConnection]
      split
      · rename_i channelId hcall
        cases succeeds with
        | true => exact .created hcall
        | false => exact .wentOn hcall rfl (by simp [OfferCall.refused])
      · exact .idle
  | addTransceiver j succeeds =>
      obtain rfl := Option.some.inj ha
      simp only [step, addTransceiver]
      split
      · rename_i offer hcall
        cases succeeds with
        | true => exact .wentOn hcall rfl (by simp)
        | false => exact .gaveUp hcall
      · exact .idle
  | setRemoteDescription j succeeds =>
      obtain rfl := Option.some.inj ha
      simp only [step, setRemoteDescription]
      split
      · rename_i offer videoTransceiver hcall
        cases succeeds with
        | true => exact .wentOn hcall rfl (by simp)
        | false => exact .gaveUp hcall
      · exact .idle
  | createAnswer j answerSdp =>
      obtain rfl := Option.some.inj ha
      simp only [step, createAnswer]
      split
      · rename_i offer videoTransceiver hcall
        cases answerSdp with
        | some answerSdp => exact .wentOn hcall rfl (by simp)
        | none => exact .gaveUp hcall
      · exact .idle
  | setLocalDescription j succeeds =>
      obtain rfl := Option.some.inj ha
      simp only [step, setLocalDescription]
      split
      · rename_i offer videoTransceiver answerSdp hcall
        cases succeeds with
        | true => exact .wentOn hcall rfl (by simp)
        | false => exact .gaveUp hcall
      · exact .idle
  | _ => cases ha

theorem OfferStep.sessions {s' : WebRtcService} {i : ℕ} (h : OfferStep s i s') :
    s'.sessions = s.sessions := by
  cases h <;> rfl

/-- **What a step does to the session of an id.** -/
theorem step_session (s : WebRtcService) (id : String) (a : Action) :
    SessionStep s id a (s.sessions.lookup id) ((step s a).sessions.lookup id) := by
  have hoffer : ∀ i, a.offer = some i → ¬ Touches s id a →
      SessionStep s id a (s.sessions.lookup id) ((step s a).sessions.lookup id) := by
    intro i ha hquiet
    rw [(offerStep ha).sessions]
    exact .kept (.inr hquiet)
  cases a with
  | handleOffer channelId =>
      obtain ⟨call, -, hs'⟩ := handleOffer_eq s channelId
      rw [step, hs']
      exact .kept (.inr not_false)
  | createPeerConnection i => exact hoffer i rfl not_false
  | addTransceiver i => exact hoffer i rfl not_false
  | setRemoteDescription i => exact hoffer i rfl not_false
  | createAnswer i => exact hoffer i rfl not_false
  | setLocalDescription i => exact hoffer i rfl not_false
  | storeSession i now =>
      rw [step]
      rcases storeSession_cases s i now with ⟨offer, _, _, hcall⟩ | ⟨hnone, hs'⟩
      · simp only [storeSession, hcall, goOn]
        by_cases e : offer.sessionId = id
        · subst e
          rw [AList.lookup_insert]
          exact .stored hcall rfl
        · rw [AList.lookup_insert_ne (Ne.symm e)]
          refine .kept (.inr ?_)
          rintro ⟨offer', _, _, hcall', hid⟩
          rw [hcall] at hcall'
          cases hcall'
          exact e hid
      · rw [hs']
        refine .kept (.inr ?_)
        rintro ⟨offer, videoTransceiver, answerSdp, hcall, -⟩
        exact hnone offer videoTransceiver answerSdp hcall
  | handleIceCandidate sessionId now added =>
      simp only [step, handleIceCandidate, lookup_modifySession]
      refine .of_modified (fun e session => ?_) Ne.symm
      subst e
      exact .touched
  | iceCandidate sessionId candidate =>
      simp only [step, handleIceCandidateInternal]
      split
      · rename_i hempty
        exact .kept (.inr fun h => h.2 hempty)
      · rename_i hcandidate
        rw [lookup_modifySession]
        refine .of_modified (fun e session => ?_) fun e h => e h.1.symm
        subst e
        exact .gathered hcandidate
  | stateChange sessionId newState now =>
      simp only [step, onConnectionStateChangeInternal, lookup_modifySession]
      refine .of_modified (fun e session => ?_) Ne.symm
      subst e
      exact .changed
  | writeVideoFrame => exact .kept (.inr not_false)
  | closeSession sessionId =>
      rw [step, lookup_closeSession]
      exact .of_gone trivial
  | collectSessions => exact .kept (.inr not_false)
  | closeNext j =>
      simp only [step, closeNext]
      split
      · rw [lookup_closeSession]
        exact .of_gone trivial
      · exact .kept (.inr not_false)
  | cleanup now =>
      rw [step, cleanup, lookup_closeEach]
      exact .of_gone trivial
  | shutdown =>
      cases h : s.sessions.lookup id with
      | none => exact .kept (.inl rfl)
      | some session => exact .removed trivial

end WebRtcService

end LoongNvr.Network
