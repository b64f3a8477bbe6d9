import LoongNvr.Network.WebRtcService
import LoongNvr.Support.Runs
import Mathlib.Data.List.Induction
import Mathlib.Logic.Function.Basic

/-!
# Network — Sessions

What reaches a session of what the peer-connection library calls back, and which sessions are taken
away.  `HandleOffer` registers the callbacks as it creates the peer connection and stores the
session as it ends, and a callback whose id has no session is dropped.

* `candidates`, `changes`: what is delivered for a session.
* `Delivered`: the session has all candidates, in order, and the last state.
* `received`: a session that is stored has what comes from then on.
* `delivered_iff`: it has everything exactly if no candidate comes before it is stored, and no state
  but one that another follows.
* `Watched`: the service, and when each session was last heard of.
* `DeadOnly`: a pass takes away only sessions that failed, were closed, or are not connected and
  have not been heard of for six times the ICE timeout.
* `Heard`: but for a connected session, `last_activity` is when it was last heard of.
* `deadOnly_iff`: all passes of a run are so exactly if no pass finds a connected session without an
  offer, candidate or state for so long.
-/

namespace LoongNvr.Network.WebRtcService

/-! ### Deliveries -/

/-- The candidates delivered for a session, but for the empty one, which says there are no more. -/
def candidates (sessionId : String) (as : List Action) : List String :=
  as.filterMap fun
    | .iceCandidate id candidate => if id = sessionId ∧ candidate ≠ "" then some candidate else none
    | _ => none

/-- The states delivered for a session. -/
def changes (sessionId : String) (as : List Action) : List WebRtcSessionState :=
  as.filterMap fun
    | .stateChange id newState _ => if id = sessionId then sessionState newState else none
    | _ => none

/-- The session has the candidates delivered for it, and its state is the last one delivered. -/
def Delivered (sessionId : String) (as : List Action) (s : WebRtcService) : Prop :=
  ∃ session, s.sessions.lookup sessionId = some session ∧
    session.pendingIceCandidates = candidates sessionId as ∧
    ∀ state ∈ (changes sessionId as).getLast?, session.state = state

/-- An action that neither stores a session nor ends one. -/
def Undisturbed : Action → Prop
  | .storeSession _ _ | .closeSession _ | .closeNext _ | .cleanup _ | .shutdown => False
  | _ => True

variable {s : WebRtcService} {i : ℕ} {sessionId : String} {a : Action}

/-! ### The call -/

/-- The call has created its peer connection, and its session is to be `sessionId`. -/
def Named (i : ℕ) (sessionId : String) (s : WebRtcService) : Prop :=
  ∃ call, s.offers[i]? = some call ∧ (∀ channelId, call ≠ .checked channelId) ∧
    ∀ offer ∈ call.offer, offer.sessionId = sessionId

/-- A step is of one call. -/
theorem OfferStep.getElem?_ne {s' : WebRtcService} {j : ℕ} (h : OfferStep s j s') (hne : j ≠ i) :
    s'.offers[i]? = s.offers[i]? := by
  cases h with
  | idle => rfl
  | created | wentOn | gaveUp => exact List.getElem?_set_ne hne

theorem Named.offerStep {s' : WebRtcService} {j : ℕ} (h : Named i sessionId s)
    (hstep : OfferStep s j s') : Named i sessionId s' := by
  obtain ⟨call, hcall, hpast, hoffer⟩ := h
  by_cases e : j = i
  · subst e
    obtain ⟨hlt, -⟩ := List.getElem?_eq_some_iff.mp hcall
    have hset : ∀ next : OfferCall, (s.offers.set j next)[j]? = some next := by
      intro next
      rw [List.getElem?_set_self hlt]
    cases hstep with
    | idle => exact ⟨call, hcall, hpast, hoffer⟩
    | created found =>
        -- the call is past its check
        rw [hcall] at found
        exact absurd (Option.some.inj found) (hpast _)
    | @wentOn _ call' _ found same past =>
        rw [hcall] at found
        obtain rfl := Option.some.inj found
        exact ⟨call', hset call', past, same ▸ hoffer⟩
    | gaveUp found =>
        exact ⟨.refused, hset .refused, by simp [OfferCall.refused],
          by simp [OfferCall.refused, OfferCall.offer]⟩
  · exact ⟨call, (hstep.getElem?_ne e).trans hcall, hpast, hoffer⟩

theorem offers_modifySession (s : WebRtcService) (id : String)
    (f : WebRtcSession → WebRtcSession) : (s.modifySession id f).offers = s.offers := by
  obtain ⟨sessions, hs'⟩ := modifySession_eq s id f
  rw [hs']

theorem Named.step (h : Named i sessionId s) (ha : Undisturbed a) :
    Named i sessionId (s.step a) := by
  have hsame : ∀ s' : WebRtcService, s'.offers = s.offers → Named i sessionId s' := by
    intro s' e
    rwa [Named, e]
  cases a with
  | handleOffer channelId =>
      obtain ⟨call, hcall, hrest⟩ := h
      obtain ⟨hlt, -⟩ := List.getElem?_eq_some_iff.mp hcall
      obtain ⟨next, -, hs'⟩ := handleOffer_eq s channelId
      rw [WebRtcService.step, hs']
      exact ⟨call, (List.getElem?_append_left hlt).trans hcall, hrest⟩
  | createPeerConnection j => exact h.offerStep (WebRtcService.offerStep (i := j) rfl)
  | addTransceiver j => exact h.offerStep (WebRtcService.offerStep (i := j) rfl)
  | setRemoteDescription j => exact h.offerStep (WebRtcService.offerStep (i := j) rfl)
  | createAnswer j => exact h.offerStep (WebRtcService.offerStep (i := j) rfl)
  | setLocalDescription j => exact h.offerStep (WebRtcService.offerStep (i := j) rfl)
  | handleIceCandidate id => exact hsame _ (offers_modifySession s id _)
  | iceCandidate id candidate =>
      refine hsame _ ?_
      simp only [WebRtcService.step, handleIceCandidateInternal]
      split
      · rfl
      · exact offers_modifySession s id _
  | stateChange id => exact hsame _ (offers_modifySession s id _)
  | writeVideoFrame => exact h
  | collectSessions => exact h
  | storeSession => exact ha.elim
  | closeSession => exact ha.elim
  | closeNext => exact ha.elim
  | cleanup => exact ha.elim
  | shutdown => exact ha.elim

theorem Named.run {as : List Action} (h : Named i sessionId s) (has : ∀ a ∈ as, Undisturbed a) :
    Named i sessionId (as.foldl WebRtcService.step s) := by
  induction as generalizing s with
  | nil => exact h
  | cons a as ih =>
      exact ih (h.step (has a List.mem_cons_self)) fun b hb => has b (List.mem_cons_of_mem a hb)

/-! ### The session -/

theorem changes_ne_connecting {as : List Action} {state : WebRtcSessionState}
    (h : state ∈ changes sessionId as) : state ≠ .connecting := by
  obtain ⟨a, -, ha⟩ := List.mem_filterMap.mp h
  cases a with
  | stateChange id newState now =>
      simp only at ha
      split at ha
      · rintro rfl
        cases newState <;> cases ha
      · cases ha
  | _ => cases ha

theorem candidates_append (as bs : List Action) :
    candidates sessionId (as ++ bs) = candidates sessionId as ++ candidates sessionId bs :=
  List.filterMap_append

theorem changes_append (as bs : List Action) :
    changes sessionId (as ++ bs) = changes sessionId as ++ changes sessionId bs :=
  List.filterMap_append

/-- A session that has received these candidates and these states since it was stored. -/
def Has (sessionId : String) (received : List String) (states : List WebRtcSessionState)
    (s : WebRtcService) : Prop :=
  ∃ session, s.sessions.lookup sessionId = some session ∧
    session.pendingIceCandidates = received ∧ session.state = states.getLast?.getD .connecting

/-- What is not about a session delivers nothing for it. -/
theorem delivers_nothing (h : ¬ Touches s sessionId a) :
    candidates sessionId [a] = [] ∧ changes sessionId [a] = [] := by
  cases a with
  | iceCandidate id candidate =>
      have hnot : ¬ (id = sessionId ∧ candidate ≠ "") := h
      exact ⟨by simp [candidates, hnot], rfl⟩
  | stateChange id newState now =>
      have hnot : id ≠ sessionId := h
      exact ⟨rfl, by simp [changes, hnot]⟩
  | _ => exact ⟨rfl, rfl⟩

/-- **A delivery** to a session that is stored. -/
theorem Has.step {received : List String} {states : List WebRtcSessionState}
    (h : Has sessionId received states s) (ha : Undisturbed a) :
    Has sessionId (received ++ candidates sessionId [a]) (states ++ changes sessionId [a])
      (s.step a) := by
  obtain ⟨session, hlookup, hreceived, hstate⟩ := h
  have hstep := step_session s sessionId a
  rw [hlookup] at hstep
  rw [Has]
  generalize (s.step a).sessions.lookup sessionId = after at hstep ⊢
  cases hstep with
  | kept quiet =>
      obtain ⟨hcandidates, hchanges⟩ := delivers_nothing (quiet.resolve_left (by simp))
      exact ⟨session, rfl, by simp [hcandidates, hreceived], by simp [hchanges, hstate]⟩
  | stored => exact ha.elim
  | touched =>
      exact ⟨_, rfl, by simpa [candidates] using hreceived, by simpa [changes] using hstate⟩
  | gathered nonempty =>
      exact ⟨_, rfl, by simp [candidates, nonempty, hreceived], by simpa [changes] using hstate⟩
  | @changed newState now =>
      refine ⟨_, rfl, by simpa [candidates] using hreceived, ?_⟩
      cases hnew : sessionState newState with
      | none => simp [changes, hnew, hstate]
      | some state => simp [changes, hnew]
  | removed ends =>
      cases a with
      | closeSession | closeNext | cleanup | shutdown => exact ha.elim
      | _ => exact ends.elim

/-- **From its insertion on** a session has what comes for it. -/
theorem Has.run {as : List Action} {received : List String} {states : List WebRtcSessionState}
    (h : Has sessionId received states s) (has : ∀ a ∈ as, Undisturbed a) :
    Has sessionId (received ++ candidates sessionId as) (states ++ changes sessionId as)
      (as.foldl WebRtcService.step s) := by
  induction as generalizing s received states with
  | nil => simpa [candidates, changes] using h
  | cons a as ih =>
      have hnext := ih (h.step (has a List.mem_cons_self)) fun b hb =>
        has b (List.mem_cons_of_mem a hb)
      rw [List.append_assoc, List.append_assoc, ← candidates_append, ← changes_append] at hnext
      exact hnext

/-- A session has nothing when it is stored. -/
theorem Has.stored {offer : Offer} {videoTransceiver : ℕ} {answerSdp : String}
    (found : s.offers[i]? = some (.localSet offer videoTransceiver answerSdp)) (now : ℤ) :
    Has offer.sessionId [] [] (s.storeSession i now) := by
  simp only [storeSession, found]
  exact ⟨newSession offer videoTransceiver answerSdp now, AList.lookup_insert _, rfl, rfl⟩

theorem Has.allReceived_iff {received : List String} {states : List WebRtcSessionState}
    (h : Has sessionId received states s) (as : List Action) :
    Delivered sessionId as s ↔ received = candidates sessionId as ∧
      ∀ state ∈ (changes sessionId as).getLast?, states.getLast?.getD .connecting = state := by
  obtain ⟨session, hlookup, rfl, hstate⟩ := h
  rw [← hstate]
  constructor
  · rintro ⟨session', hlookup', hdelivered⟩
    obtain rfl := Option.some.inj (hlookup'.symm.trans hlookup)
    exact hdelivered
  · intro hdelivered
    exact ⟨session, hlookup, hdelivered⟩

/-- The last of all states is the one a session has that was stored between them, in kConnecting:
either there was none before, or there is one after. -/
theorem lastState_iff {before after : List WebRtcSessionState}
    (h : ∀ state ∈ before, state ≠ .connecting) :
    (∀ state ∈ (before ++ after).getLast?, after.getLast?.getD .connecting = state) ↔
      before = [] ∨ after ≠ [] := by
  cases after with
  | nil =>
      rw [List.append_nil, or_iff_left (by simp)]
      constructor
      · intro hall
        by_contra hne
        have hlast := List.getLast?_eq_some_getLast hne
        exact h _ (List.getLast_mem hne) (hall _ hlast).symm
      · rintro rfl state hstate
        cases hstate
  | cons state states =>
      refine iff_of_true (fun last hlast => ?_) (.inr (by simp))
      rw [List.getLast?_append_of_ne_nil _ (by simp)] at hlast
      rw [hlast, Option.getD_some]

/-! ### Every interleaving -/

/-- Call `i` has only to store its session. -/
def Ready (i : ℕ) (s : WebRtcService) : Prop :=
  ∃ offer videoTransceiver answerSdp,
    s.offers[i]? = some (.localSet offer videoTransceiver answerSdp)

theorem named_created {channelId : ℤ} (hcall : s.offers[i]? = some (.checked channelId))
    (sessionId : String) : Named i sessionId (s.step (.createPeerConnection i sessionId true)) := by
  obtain ⟨hlt, -⟩ := List.getElem?_eq_some_iff.mp hcall
  simp only [step, createPeerConnection, hcall]
  exact ⟨_, List.getElem?_set_self hlt, by simp, by simp [OfferCall.offer]⟩

/-- **A session has everything delivered since its callbacks were registered exactly if no candidate
comes before it is stored, and no state unless another one comes after.** -/
theorem delivered_iff (s : WebRtcService) (i : ℕ) (sessionId : String) (channelId now : ℤ)
    (before after : List Action) (hcall : s.offers[i]? = some (.checked channelId))
    (hundisturbed : ∀ a ∈ before ++ after, Undisturbed a)
    (hready : Ready i (before.foldl step (step s (.createPeerConnection i sessionId true)))) :
    Delivered sessionId (before ++ .storeSession i now :: after)
        ((before ++ .storeSession i now :: after).foldl step
          (step s (.createPeerConnection i sessionId true))) ↔
      candidates sessionId before = [] ∧
        (changes sessionId before = [] ∨ changes sessionId after ≠ []) := by
  have hbefore : ∀ a ∈ before, Undisturbed a := fun a ha =>
    hundisturbed a (List.mem_append_left _ ha)
  have hafter : ∀ a ∈ after, Undisturbed a := fun a ha =>
    hundisturbed a (List.mem_append_right _ ha)
  -- the session that is stored has the name the callbacks were registered with
  obtain ⟨offer, videoTransceiver, answerSdp, hlocal⟩ := hready
  obtain ⟨call, hcall', -, hoffer⟩ := (named_created hcall sessionId).run hbefore
  rw [hlocal] at hcall'
  obtain rfl := Option.some.inj hcall'
  obtain rfl := hoffer offer rfl
  have hhas := (Has.stored hlocal now).run hafter
  rw [List.nil_append, List.nil_append] at hhas
  have hsilent : candidates offer.sessionId (Action.storeSession i now :: after) =
      candidates offer.sessionId after := rfl
  have hsilent' : changes offer.sessionId (Action.storeSession i now :: after) =
      changes offer.sessionId after := rfl
  rw [List.foldl_append, List.foldl_cons]
  refine (hhas.allReceived_iff _).trans ?_
  rw [candidates_append, changes_append, hsilent, hsilent',
    lastState_iff fun state hstate => changes_ne_connecting hstate]
  exact and_congr_left' List.self_eq_append_left

/-- A service that is serving its first offer. -/
def offered : WebRtcService := handleOffer 1 (start {})

/-- The steps of its call until the session is stored. -/
def negotiation : List Action :=
  [.addTransceiver 0 true, .setRemoteDescription 0 true, .createAnswer 0 (some "v=0"),
    .setLocalDescription 0 true]

/-- A candidate and two states. -/
def trickle : List Action :=
  [.stateChange "a" .disconnected 20, .iceCandidate "a" "c", .stateChange "a" .connected 30]

/-- They come after the session is stored. -/
theorem delivered_late :
    Delivered "a" (negotiation ++ .storeSession 0 10 :: trickle)
      ((negotiation ++ .storeSession 0 10 :: trickle).foldl step
        (step offered (.createPeerConnection 0 "a" true))) :=
  (delivered_iff offered 0 "a" 1 10 negotiation trickle rfl
    (by simp [Undisturbed, negotiation, trickle]) ⟨_, _, _, rfl⟩).mpr ⟨rfl, .inl rfl⟩

/-- What comes while the session is not yet stored is lost. -/
theorem delivered_refuted :
    ¬ (∀ before after : List Action, (∀ a ∈ before ++ after, Undisturbed a) →
        Ready 0 (before.foldl step (step offered (.createPeerConnection 0 "a" true))) →
          Delivered "a" (before ++ .storeSession 0 10 :: after)
            ((before ++ .storeSession 0 10 :: after).foldl step
              (step offered (.createPeerConnection 0 "a" true)))) := by
  intro h
  obtain ⟨session, hlookup, hreceived, -⟩ := h (negotiation ++ trickle) []
    (by simp [Undisturbed, negotiation, trickle]) ⟨_, _, _, rfl⟩
  cases hlookup
  cases hreceived

end LoongNvr.Network.WebRtcService

/-! ### Cleanup

Which sessions a pass of `CleanupLoop` takes away.  It goes by `last_activity`, whatever state a
session is in; and a frame that is written to a session does not count as activity.
-/

namespace LoongNvr.Network.WebRtcService
open Support

/-- The service, and when each session was last heard of: it was stored, a candidate or a state came
for it, or a frame was written to it.  The service does not read this. -/
structure Watched where
  service : WebRtcService
  heard : String → ℤ := fun _ => 0

/-- What an action says of the sessions. -/
def note (s : WebRtcService) (heard : String → ℤ) : Action → String → ℤ
  | .storeSession i now =>
      match s.offers[i]? with
      | some (.localSet offer _ _) => Function.update heard offer.sessionId now
      | _ => heard
  | .handleIceCandidate id now _ => Function.update heard id now
  | .stateChange id _ now => Function.update heard id now
  | .writeVideoFrame channelId now written => fun id =>
      if id ∈ s.writeVideoFrame channelId ∧ id ∈ written then now else heard id
  | _ => heard

def watch (w : Watched) (a : Action) : Watched := ⟨w.service.step a, note w.service w.heard a⟩

/-- A pass takes away no session but the failed and the closed ones, and those that are not
connected and have not been heard of for longer than the timeout. -/
def DeadOnly (w : Watched) : Action → Prop
  | .cleanup now => ∀ id session, w.service.sessions.lookup id = some session →
      (w.service.cleanup now).sessions.lookup id = none →
        session.state = .failed ∨ session.state = .closed ∨
          session.state ≠ .connected ∧ now - w.heard id > timeoutMs w.service.config
  | _ => True

/-- A pass finds no connected session whose last offer, candidate or state is too long ago. -/
def NoQuietViewer (w : Watched) : Action → Prop
  | .cleanup now => ∀ id session, w.service.sessions.lookup id = some session →
      session.state = .connected → now - session.lastActivity ≤ timeoutMs w.service.config
  | _ => True

/-! ### Activity -/

/-- Of a session that is not connected, `last_activity` is the time it was last heard of. -/
def Heard (w : Watched) : Prop :=
  ∀ id session, w.service.sessions.lookup id = some session → session.state ≠ .connected →
    w.heard id = session.lastActivity

/-- A session nothing is about is heard of only by a frame, if it is connected. -/
theorem note_quiet {s : WebRtcService} {id : String} {a : Action} (h : ¬ Touches s id a)
    (heard : String → ℤ) :
    note s heard a id = heard id ∨
      ∃ session, s.sessions.lookup id = some session ∧ session.state = .connected := by
  cases a with
  | storeSession i now =>
      left
      cases hcall : s.offers[i]? with
      | none => simp only [note, hcall]
      | some call =>
          cases call with
          | localSet offer videoTransceiver answerSdp =>
              have hne : id ≠ offer.sessionId := by
                rintro rfl
                exact h ⟨offer, videoTransceiver, answerSdp, hcall, rfl⟩
              simp only [note, hcall]
              rw [Function.update_of_ne hne]
          | _ => simp only [note, hcall]
  | handleIceCandidate id' now added =>
      have hne : id' ≠ id := h
      exact .inl (Function.update_of_ne hne.symm _ _)
  | stateChange id' newState now =>
      have hne : id' ≠ id := h
      exact .inl (Function.update_of_ne hne.symm _ _)
  | writeVideoFrame channelId now written =>
      simp only [note]
      split
      · rename_i hwritten
        right
        obtain ⟨hid, -⟩ := hwritten
        simp only [writeVideoFrame] at hid
        split at hid
        · cases hid
        · obtain ⟨session, hlookup, hp⟩ := mem_idsWith.mp hid
          rw [decide_eq_true_eq] at hp
          exact ⟨session, hlookup, hp.2.1⟩
      · exact .inl rfl
  | _ => exact .inl rfl

/-- **What a session is heard of is noted as its activity**, unless it is connected. -/
theorem Heard.step {w : Watched} (h : Heard w) (a : Action) : Heard (watch w a) := by
  intro id session hlookup hstate
  have hstep := step_session w.service id a
  have hid := h id
  rw [watch] at hlookup
  rw [hlookup] at hstep
  rw [watch]
  generalize hbefore : w.service.sessions.lookup id = before at hstep hid
  cases hstep with
  | kept quiet =>
      rcases note_quiet (quiet.resolve_left (by simp)) w.heard with hsame | ⟨other, e, hconnected⟩
      · exact hsame.trans (hid session rfl hstate)
      · rw [hbefore] at e
        exact absurd (Option.some.inj e ▸ hconnected) hstate
  | stored found named =>
      subst named
      simp only [note, found]
      rw [Function.update_self]
      rfl
  | touched => exact Function.update_self ..
  | @gathered _ session => exact (hid session rfl hstate :)
  | changed => exact Function.update_self ..

/-! ### Passes -/

theorem lookup_cleanup_eq_none_iff {s : WebRtcService} {id : String} {now : ℤ}
    {session : WebRtcSession} (h : s.sessions.lookup id = some session) :
    (s.cleanup now).sessions.lookup id = none ↔
      now - session.lastActivity > timeoutMs s.config ∨ session.state = .failed ∨
        session.state = .closed := by
  have hgoes : (stale s.config now session || failed session) = true ↔
      now - session.lastActivity > timeoutMs s.config ∨ session.state = .failed ∨
        session.state = .closed := by
    simp [stale, failed]
  rw [lookup_cleanup, h, Option.filter_some]
  cases hgo : stale s.config now session || failed session with
  | true => exact iff_of_true rfl (hgoes.mp hgo)
  | false =>
      refine iff_of_false (by simp) fun hremoved => ?_
      rw [hgoes.mpr hremoved] at hgo
      cases hgo

/-- **A pass** takes away only dead sessions exactly if it finds no quiet viewer. -/
theorem deadOnly_step {w : Watched} (h : Heard w) (a : Action) :
    DeadOnly w a ↔ NoQuietViewer w a := by
  cases a with
  | cleanup now =>
      refine forall₂_congr fun id session => forall_congr' fun hlookup => ?_
      rw [lookup_cleanup_eq_none_iff hlookup]
      constructor
      · intro hdead hconnected
        by_contra hquiet
        rcases hdead (.inl (Int.not_le.mp hquiet)) with e | e | ⟨hnot, -⟩
        · rw [e] at hconnected
          cases hconnected
        · rw [e] at hconnected
          cases hconnected
        · exact hnot hconnected
      · intro hquiet hremoved
        rcases hremoved with hstale | hfailed | hclosed
        · by_cases hconnected : session.state = .connected
          · exact absurd (hquiet hconnected) (Int.not_le.mpr hstale)
          · rw [h id session hlookup hconnected]
            exact .inr (.inr ⟨hconnected, hstale⟩)
        · exact .inl hfailed
        · exact .inr (.inl hclosed)
  | _ => exact Iff.rfl

/-- **All passes of a run take away only dead sessions exactly if none finds a connected session
that has had no offer, candidate or state for six times the ICE timeout.** -/
theorem deadOnly_iff (config : WebRtcConfig) (as : List Action) :
    EveryStep watch DeadOnly { service := start config } as ↔
      EveryStep watch NoQuietViewer { service := start config } as := by
  have hstart : Heard { service := start config } := by
    intro id session hlookup
    simp [start] at hlookup
  constructor
  · intro h
    exact h.of_invariant (fun w a hw _ => hw.step a) (fun w a hw => (deadOnly_step hw a).mp) hstart
  · intro h
    exact h.of_invariant (fun w a hw _ => hw.step a) (fun w a hw => (deadOnly_step hw a).mpr) hstart

/-- A viewer that is connected, and whose last frame is 20 ms old when the pass comes. -/
def watching : List Action :=
  [.handleOffer 1, .createPeerConnection 0 "a" true, .addTransceiver 0 true,
    .setRemoteDescription 0 true, .createAnswer 0 (some "v=0"), .setLocalDescription 0 true,
    .storeSession 0 0, .stateChange "a" .connected 10, .writeVideoFrame 1 60000 ["a"],
    .cleanup 60020]

/-- The pass takes it away. -/
theorem deadOnly_refuted :
    ¬ (∀ as : List Action, EveryStep watch DeadOnly { service := start {} } as) := by
  intro h
  have hdead := (everyStep_iff_split.mp (h watching)) (watching.take 9) (.cleanup 60020) [] rfl
  have hsession := hdead "a"
    { channelId := 1, state := .connected, peerConnection := some 0, videoTransceiver := some 0
      createdAt := 0, lastActivity := 10, pendingAnswerSdp := "v=0" } rfl rfl
  rcases hsession with e | e | ⟨hnot, -⟩
  · cases e
  · cases e
  · exact hnot rfl

end LoongNvr.Network.WebRtcService
