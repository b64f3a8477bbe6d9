import LoongNvr.Network.WebRtcService
import LoongNvr.Support.Custody
import LoongNvr.Support.Runs

/-!
# Network — SessionCap

How many sessions `WebRtcService` stores, and where its peer connections are.  `HandleOffer` checks
the number of sessions when it begins and stores its session when it ends, whatever has been stored
in between; and it stores over a session with the same id.

* `custody`: each peer connection is with a call, in a session, or freed.
* `custody_step`: no step but the last of a `HandleOffer` call can lose one.
* `Capped`: at most `max_sessions` sessions, and no peer connection lost.
* `capped_iff`: a run stays so exactly if each session is stored under a new id while there are
  fewer than `max_sessions`.
-/

namespace LoongNvr.Network.WebRtcService
open Support

/-- Where a peer connection can be. -/
inductive Place
  | call (i : ℕ)
  | session (id : String)
  | freed
  deriving DecidableEq, Repr

/-- The peer connection is there. -/
def holds (s : WebRtcService) : Place → ℕ → Prop
  | .call i, pc => (s.offers[i]?).bind OfferCall.pc = some pc
  | .session id, pc => (s.sessions.lookup id).bind (·.peerConnection) = some pc
  | .freed, pc => pc ∈ s.freedPeerConnections

def custody (s : WebRtcService) : Custody Place := ⟨s.peerConnections, s.holds⟩

variable {s s' : WebRtcService} {a : Action}

/-! ### Calls -/

theorem bind_set {calls : List OfferCall} {i : ℕ} {call call' : OfferCall}
    (h : calls[i]? = some call) (j : ℕ) :
    ((calls.set i call')[j]?).bind OfferCall.pc =
      if j = i then call'.pc else (calls[j]?).bind OfferCall.pc := by
  obtain ⟨hlt, -⟩ := List.getElem?_eq_some_iff.mp h
  rw [List.getElem?_set]
  by_cases e : i = j
  · subst e
    rw [if_pos rfl, if_pos rfl, if_pos hlt, Option.bind_some]
  · rw [if_neg e, if_neg (Ne.symm e)]

theorem bind_concat (calls : List OfferCall) {call : OfferCall} (h : call.pc = none) (j : ℕ) :
    ((calls ++ [call])[j]?).bind OfferCall.pc = (calls[j]?).bind OfferCall.pc := by
  rcases Nat.lt_trichotomy j calls.length with hlt | rfl | hgt
  · rw [List.getElem?_append_left hlt]
  · simp [h]
  · have hle : (calls ++ [call]).length ≤ j := by
      rw [List.length_append, List.length_singleton]
      exact hgt
    rw [List.getElem?_eq_none hle, List.getElem?_eq_none hgt.le]

/-- A call on its way makes a peer connection, keeps it, or frees it. -/
theorem custody_offerStep {i : ℕ} (h : OfferStep s i s') :
    Custody.Moves s.custody s'.custody ∨ ∃ p, Custody.Makes p s.custody s'.custody := by
  cases h with
  | idle => exact .inl (.refl _)
  | @created channelId sessionId found =>
      right
      refine ⟨.call i, rfl, fun q n => ?_⟩
      cases q with
      | call j =>
          simp only [custody, holds, goOn, bind_set found, Place.call.injEq]
          by_cases e : j = i
          · subst e
            simp [found, OfferCall.pc, OfferCall.offer, eq_comm]
          · simp [e]
      | session id => simp [custody, holds, goOn]
      | freed => simp [custody, holds, goOn]
  | @wentOn call call' _ found same past =>
      left
      refine .of_eq rfl fun q n => ?_
      cases q with
      | call j =>
          simp only [custody, holds, goOn, bind_set found]
          by_cases e : j = i
          · subst e
            simp [found, OfferCall.pc, same]
          · simp [e]
      | session id => rfl
      | freed => rfl
  | @gaveUp call _ found =>
      left
      refine Custody.Pours.moves (p := .call i) (q := .freed) ⟨rfl, fun r n => ?_⟩
      cases r with
      | call j =>
          simp only [custody, holds, goOn, bind_set found]
          by_cases e : j = i
          · simp [e, OfferCall.refused, OfferCall.pc, OfferCall.offer]
          · simp [e]
      | session id => simp [custody, holds, goOn]
      | freed => simp [custody, holds, goOn, found, eq_comm]

/-! ### Sessions -/

/-- A session that is closed has its peer connection freed. -/
theorem custody_closeSession (s : WebRtcService) (id : String) :
    Custody.Moves s.custody (s.closeSession id).1.custody := by
  rw [closeSession]
  cases h : s.sessions.lookup id with
  | none => exact .refl _
  | some session =>
      refine Custody.Pours.moves (p := .session id) (q := .freed) ⟨rfl, fun r n => ?_⟩
      cases r with
      | call j => simp [custody, holds, destroy]
      | session id' =>
          simp only [custody, holds, destroy]
          by_cases e : id' = id
          · subst e
            simp
          · simp [e]
      | freed => simp [custody, holds, destroy, h]

theorem custody_closeEach (ids : List String) (s : WebRtcService) :
    Custody.Moves s.custody (ids.foldl (fun s id => (s.closeSession id).1) s).custody := by
  induction ids generalizing s with
  | nil => exact .refl _
  | cons id ids ih => exact (custody_closeSession s id).trans (ih _)

/-- Where a session is put when the service shuts down. -/
def Place.afterShutdown : Place → Place
  | .call i => .call i
  | .session _ | .freed => .freed

theorem custody_shutdown (s : WebRtcService) : Custody.Moves s.custody s.shutdown.custody := by
  have hstored : ∀ n, n ∈ s.sessions.entries.flatMap (·.2.peerConnection.toList) ↔
      ∃ id, s.holds (.session id) n := by
    intro n
    simp only [List.mem_flatMap, Option.mem_toList, holds, Option.bind_eq_some_iff]
    constructor
    · rintro ⟨⟨id, session⟩, hmem, hpc⟩
      exact ⟨id, session, AList.mem_lookup_iff.mpr hmem, hpc⟩
    · rintro ⟨id, session, hlookup, hpc⟩
      exact ⟨⟨id, session⟩, AList.mem_lookup_iff.mp hlookup, hpc⟩
  refine ⟨Place.afterShutdown, rfl, fun r n => ?_⟩
  simp only [custody, Option.some.injEq]
  cases r with
  | call j =>
      constructor
      · intro hcall
        exact ⟨.call j, hcall, rfl⟩
      · rintro ⟨_ | _ | _, hq, hto⟩
        · exact hto ▸ hq
        · cases hto
        · cases hto
  | session id =>
      constructor
      · intro hsession
        simp [holds, shutdown] at hsession
      · rintro ⟨_ | _ | _, -, hto⟩ <;> cases hto
  | freed =>
      simp only [holds, shutdown, List.mem_append]
      rw [hstored n]
      constructor
      · rintro (hfreed | ⟨id, hid⟩)
        · exact ⟨.freed, hfreed, rfl⟩
        · exact ⟨.session id, hid, rfl⟩
      · rintro ⟨_ | id | _, hq, hto⟩
        · cases hto
        · exact .inr ⟨id, hq⟩
        · exact .inl hq

/-- An update that leaves the session its peer connection. -/
theorem custody_modifySession (s : WebRtcService) (id : String)
    {f : WebRtcSession → WebRtcSession} (hf : ∀ x, (f x).peerConnection = x.peerConnection) :
    Custody.Moves s.custody (s.modifySession id f).custody := by
  rw [modifySession]
  cases h : s.sessions.lookup id with
  | none => exact .refl _
  | some session =>
      refine .of_eq rfl fun r n => ?_
      cases r with
      | call j => rfl
      | session id' =>
          simp only [custody, holds]
          by_cases e : id' = id
          · subst e
            rw [AList.lookup_insert, h, Option.bind_some, Option.bind_some, hf]
          · rw [AList.lookup_insert_ne e]
      | freed => rfl

/-- **A session that is stored** has its peer connection from its call, and takes the place of the
session that had its id. -/
theorem custody_storeSession {i : ℕ} {offer : Offer} {videoTransceiver : ℕ} {answerSdp : String}
    (found : s.offers[i]? = some (.localSet offer videoTransceiver answerSdp)) (now : ℤ) :
    Custody.Replaces (.call i) (.session offer.sessionId) s.custody
      (s.storeSession i now).custody := by
  simp only [storeSession, found]
  refine ⟨rfl, fun r n => ?_⟩
  cases r with
  | call j =>
      simp only [custody, holds, goOn, bind_set found]
      by_cases e : j = i
      · simp [e, OfferCall.pc, OfferCall.offer]
      · simp [e]
  | session id =>
      simp only [custody, holds, goOn]
      by_cases e : id = offer.sessionId
      · subst e
        simp [newSession, found, OfferCall.pc, OfferCall.offer]
      · simp [e]
  | freed => simp [custody, holds, goOn]

/-- Every other step keeps all peer connections, or makes one. -/
theorem custody_step (ha : ∀ i now, a ≠ .storeSession i now) :
    Custody.Moves s.custody (step s a).custody ∨
      ∃ p, Custody.Makes p s.custody (step s a).custody := by
  cases a with
  | handleOffer channelId =>
      left
      obtain ⟨call, hnone, hs'⟩ := handleOffer_eq s channelId
      rw [step, hs']
      refine .of_eq rfl fun r n => ?_
      cases r with
      | call j => simp only [custody, holds, bind_concat s.offers hnone]
      | session id => rfl
      | freed => rfl
  | createPeerConnection i => exact custody_offerStep (offerStep (i := i) rfl)
  | addTransceiver i => exact custody_offerStep (offerStep (i := i) rfl)
  | setRemoteDescription i => exact custody_offerStep (offerStep (i := i) rfl)
  | createAnswer i => exact custody_offerStep (offerStep (i := i) rfl)
  | setLocalDescription i => exact custody_offerStep (offerStep (i := i) rfl)
  | storeSession i now => exact absurd rfl (ha i now)
  | handleIceCandidate id now added => exact .inl (custody_modifySession s id fun _ => rfl)
  | iceCandidate id candidate =>
      left
      simp only [step, handleIceCandidateInternal]
      split
      · exact .refl _
      · exact custody_modifySession s id fun _ => rfl
  | stateChange id newState now => exact .inl (custody_modifySession s id fun _ => rfl)
  | writeVideoFrame => exact .inl (.refl _)
  | closeSession id => exact .inl (custody_closeSession s id)
  | collectSessions => exact .inl (.of_eq rfl fun r n => by cases r <;> rfl)
  | closeNext j =>
      left
      simp only [step, closeNext]
      split
      · refine Custody.Moves.trans ?_ (custody_closeSession _ _)
        exact .of_eq rfl fun r n => by cases r <;> rfl
      · exact .refl _
  | cleanup now => exact .inl (custody_closeEach _ s)
  | shutdown => exact .inl (custody_shutdown s)

/-- Every session that is stored has its peer connection. -/
def Opened (s : WebRtcService) : Prop :=
  ∀ id session, s.sessions.lookup id = some session → session.peerConnection ≠ none

theorem Opened.step (h : Opened s) (a : Action) : Opened (s.step a) := by
  intro id session hlookup
  have hstep := step_session s id a
  have hid := h id
  rw [hlookup] at hstep
  generalize s.sessions.lookup id = before at hstep hid
  cases hstep with
  | kept => exact hid session rfl
  | stored => exact Option.some_ne_none _
  | @touched _ _ session => exact (hid session rfl :)
  | @gathered _ session => exact (hid session rfl :)
  | @changed _ _ session => exact (hid session rfl :)

/-! ### How many -/

theorem OfferStep.config {i : ℕ} (h : OfferStep s i s') : s'.config = s.config := by
  cases h <;> rfl

theorem config_closeSession (s : WebRtcService) (id : String) :
    (s.closeSession id).1.config = s.config := by
  rw [closeSession]
  split <;> rfl

theorem config_closeEach (ids : List String) (s : WebRtcService) :
    (ids.foldl (fun s id => (s.closeSession id).1) s).config = s.config := by
  induction ids generalizing s with
  | nil => rfl
  | cons id ids ih => rw [List.foldl_cons, ih, config_closeSession]

theorem config_step (s : WebRtcService) (a : Action) : (step s a).config = s.config := by
  have hoffer : ∀ i, a.offer = some i → (step s a).config = s.config := by
    intro i ha
    exact (offerStep ha).config
  have hmodify : ∀ id f, (s.modifySession id f).config = s.config := by
    intro id f
    obtain ⟨sessions, hs'⟩ := modifySession_eq s id f
    rw [hs']
  cases a with
  | handleOffer channelId =>
      obtain ⟨call, -, hs'⟩ := handleOffer_eq s channelId
      rw [step, hs']
  | createPeerConnection i => exact hoffer i rfl
  | addTransceiver i => exact hoffer i rfl
  | setRemoteDescription i => exact hoffer i rfl
  | createAnswer i => exact hoffer i rfl
  | setLocalDescription i => exact hoffer i rfl
  | storeSession i now =>
      simp only [step, storeSession]
      split <;> rfl
  | handleIceCandidate id => exact hmodify id _
  | iceCandidate id candidate =>
      simp only [step, handleIceCandidateInternal]
      split
      · rfl
      · exact hmodify id _
  | stateChange id => exact hmodify id _
  | writeVideoFrame => rfl
  | closeSession id => exact config_closeSession s id
  | collectSessions => rfl
  | closeNext j =>
      simp only [step, closeNext]
      split
      · exact config_closeSession _ _
      · rfl
  | cleanup now => exact config_closeEach _ s
  | shutdown => rfl

/-- Only a session that is stored adds an id. -/
theorem length_step (ha : ∀ i now, a ≠ .storeSession i now) :
    (step s a).sessions.keys.length ≤ s.sessions.keys.length := by
  refine (List.subperm_of_subset (step s a).sessions.keys_nodup fun id hid => ?_).length_le
  rw [← AList.mem_keys, ← AList.lookup_isSome] at hid ⊢
  have hstep := step_session s id a
  generalize (step s a).sessions.lookup id = after at hstep hid
  generalize s.sessions.lookup id = before at hstep ⊢
  cases hstep with
  | kept => exact hid
  | stored => exact absurd rfl (ha _ _)
  | touched => rfl
  | gathered => rfl
  | changed => rfl
  | removed => rfl

theorem length_storeSession {i : ℕ} {offer : Offer} {videoTransceiver : ℕ} {answerSdp : String}
    (found : s.offers[i]? = some (.localSet offer videoTransceiver answerSdp)) (now : ℤ)
    (hnew : offer.sessionId ∉ s.sessions) :
    (s.storeSession i now).sessions.keys.length = s.sessions.keys.length + 1 := by
  simp only [storeSession, found, goOn, AList.keys_insert, List.length_cons]
  rw [List.erase_of_not_mem (fun h => hnew (AList.mem_keys.mpr h))]

/-! ### The cap -/

/-- There are at most `max_sessions` sessions, and every peer connection that was created is stored,
freed, or with a call that has not returned. -/
structure Capped (s : WebRtcService) : Prop where
  bounded : (s.sessions.keys.length : ℤ) ≤ s.config.maxSessions
  kept : s.custody.Kept

/-- A session is stored under an id that is not in use while there are fewer than `max_sessions`. -/
def Room (s : WebRtcService) : Action → Prop
  | .storeSession i _ => ∀ offer videoTransceiver answerSdp,
      s.offers[i]? = some (.localSet offer videoTransceiver answerSdp) →
        offer.sessionId ∉ s.sessions ∧ (s.sessions.keys.length : ℤ) < s.config.maxSessions
  | _ => True

/-- What a run keeps besides. -/
structure Accounted (s : WebRtcService) : Prop where
  exclusive : s.custody.Exclusive
  opened : Opened s

theorem Accounted.step (h : Accounted s) (a : Action) : Accounted (s.step a) := by
  refine ⟨?_, h.opened.step a⟩
  by_cases ha : ∃ i now, a = .storeSession i now
  · obtain ⟨i, now, rfl⟩ := ha
    rw [WebRtcService.step]
    rcases storeSession_cases s i now with ⟨_, _, _, hcall⟩ | ⟨-, hs'⟩
    · exact (custody_storeSession hcall now).exclusive (by simp) h.exclusive
    · rw [hs']
      exact h.exclusive
  · simp only [not_exists] at ha
    rcases custody_step ha with hmoves | ⟨p, hmakes⟩
    · exact hmoves.exclusive h.exclusive
    · exact hmakes.exclusive h.exclusive

theorem start_accounted (config : WebRtcConfig) : Accounted (start config) := by
  have hnone : ∀ p n, ¬ (start config).custody.holds p n := by
    intro p n h
    cases p with
    | call i => simp [custody, holds, start] at h
    | session id => simp [custody, holds, start] at h
    | freed => simp [custody, holds, start] at h
  refine ⟨⟨fun p q n hp => absurd hp (hnone p n), fun p n hp => absurd hp (hnone p n)⟩, ?_⟩
  intro id session hlookup
  simp [start] at hlookup

/-- **The insertion** keeps to the cap, and what there was, exactly if there is room. -/
theorem capped_storeSession {i : ℕ} {offer : Offer} {videoTransceiver : ℕ} {answerSdp : String}
    (hacc : Accounted s) (h : Capped s)
    (found : s.offers[i]? = some (.localSet offer videoTransceiver answerSdp)) (now : ℤ) :
    Capped (s.storeSession i now) ↔
      offer.sessionId ∉ s.sessions ∧ (s.sessions.keys.length : ℤ) < s.config.maxSessions := by
  have hreplaces := custody_storeSession found now
  have hkept := hreplaces.kept_iff (by simp) hacc.exclusive h.kept
  have hconfig : (s.storeSession i now).config = s.config := config_step s (.storeSession i now)
  constructor
  · rintro ⟨hbounded, hlast⟩
    have hnew : offer.sessionId ∉ s.sessions := by
      intro hmem
      obtain ⟨session, hsession⟩ := Option.isSome_iff_exists.mp (AList.lookup_isSome.mpr hmem)
      obtain ⟨pc, hpc⟩ := Option.ne_none_iff_exists'.mp (hacc.opened _ _ hsession)
      -- the peer connection of the session that is overwritten is nowhere any more
      refine hkept.mp hlast pc ?_
      simp only [custody, holds, hsession, Option.bind_some]
      exact hpc
    rw [length_storeSession found now hnew, hconfig] at hbounded
    exact ⟨hnew, by push_cast at hbounded; omega⟩
  · rintro ⟨hnew, hroom⟩
    refine ⟨?_, hkept.mpr fun n hn => ?_⟩
    · rw [length_storeSession found now hnew, hconfig]
      push_cast
      omega
    · simp only [custody, holds, AList.lookup_eq_none.mpr hnew, Option.bind_none] at hn
      cases hn

theorem capped_step (hacc : Accounted s) (h : Capped s) (a : Action) :
    Capped (step s a) ↔ Room s a := by
  by_cases ha : ∃ i now, a = .storeSession i now
  · obtain ⟨i, now, rfl⟩ := ha
    rw [step]
    rcases storeSession_cases s i now with ⟨offer, _, _, hcall⟩ | ⟨hnone, hs'⟩
    · refine (capped_storeSession hacc h hcall now).trans ⟨?_, fun hroom => ?_⟩
      · intro hroom offer' videoTransceiver' answerSdp' hcall'
        rw [hcall] at hcall'
        cases hcall'
        exact hroom
      · exact hroom offer _ _ hcall
    · rw [hs']
      exact iff_of_true h fun offer _ _ hcall => absurd hcall (hnone offer _ _)
  · simp only [not_exists] at ha
    refine iff_of_true ⟨?_, ?_⟩ ?_
    · rw [config_step]
      exact Int.le_trans (Int.ofNat_le.mpr (length_step ha)) h.bounded
    · rcases custody_step ha with hmoves | ⟨p, hmakes⟩
      · exact hmoves.kept hacc.exclusive h.kept
      · exact hmakes.kept h.kept
    · cases a with
      | storeSession i now => exact absurd rfl (ha i now)
      | _ => trivial

/-- **The cap is kept, and no peer connection lost, exactly if each session is stored under a new
id while there are fewer than `max_sessions`.** -/
theorem capped_iff (config : WebRtcConfig) (as : List Action) :
    Along step Capped (start config) as ↔
      0 ≤ config.maxSessions ∧ EveryStep step Room (start config) as := by
  by_cases hmax : 0 ≤ config.maxSessions
  · have hstart : Capped (start config) := ⟨by simpa [start] using hmax, fun n hn => absurd hn (by
      simp [custody, start])⟩
    rw [and_iff_right hmax]
    refine along_iff_of_invariant (I := fun s => Capped s ∧ Accounted s) (fun s h => h.1) ?_ ?_
      ⟨hstart, start_accounted config⟩
    · intro s a h hroom
      exact ⟨(capped_step h.2 h.1 a).mpr hroom, h.2.step a⟩
    · intro s a h hnext
      exact (capped_step h.2 h.1 a).mp hnext
  · refine iff_of_false (fun h => hmax ?_) fun h => hmax h.1
    simpa [start] using h.first.bounded

/-- Two calls that pass the check before either stores its session. -/
def overlapping : List Action :=
  [.handleOffer 1, .handleOffer 1,
    .createPeerConnection 0 "a" true, .addTransceiver 0 true, .setRemoteDescription 0 true,
    .createAnswer 0 (some "v=0"), .setLocalDescription 0 true, .storeSession 0 0,
    .createPeerConnection 1 "b" true, .addTransceiver 1 true, .setRemoteDescription 1 true,
    .createAnswer 1 (some "v=0"), .setLocalDescription 1 true, .storeSession 1 0]

/-- Where one session is allowed, two are stored. -/
theorem capped_refuted : ¬ Along step Capped (start { maxSessions := 1 }) overlapping := by
  intro h
  exact absurd h.last.bounded (by decide +kernel)

end LoongNvr.Network.WebRtcService
