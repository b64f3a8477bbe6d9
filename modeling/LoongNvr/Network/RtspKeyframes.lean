import LoongNvr.Network.RtspServer
import LoongNvr.Support.Runs

/-!
# Network — RtspKeyframes

Whether what a session is sent starts on a keyframe of its channel.  `PLAY` makes a session wait for
one, `SETUP` does not, and `PLAY` is accepted before any `SETUP`.

* `Proper`: the frames of a log are of its last `SETUP`'s channel, each after a keyframe.
* `Linked`: what the fields of a session say about its log.
* `proper_pushFrame_iff`: one frame and one session.
* `startsOnKeyframes_iff`: a run is as it should be exactly if no other frame than a keyframe is sent
  after a session was set up anew, and no keyframe to a session that was never set up.
-/

namespace LoongNvr.Network
open Support

/-! ### Logs -/

namespace RtspEvent

/-- The channel of the last `SETUP`. -/
def channelOf : List RtspEvent → Option ℤ
  | [] => none
  | .setup channelId :: _ => some channelId
  | _ :: log => channelOf log

/-- Since the last `SETUP` or `PLAY` a keyframe of the channel was sent. -/
def KeyframeSince (channelId : ℤ) : List RtspEvent → Prop
  | [] | .setup _ :: _ | .play :: _ => False
  | .teardown :: log => KeyframeSince channelId log
  | .sent id isKeyframe _ :: log =>
      id = channelId ∧ isKeyframe = true ∨ KeyframeSince channelId log

/-- A frame that is sent belongs to the channel of the session, is a keyframe or comes after one,
and not after a `TEARDOWN`. -/
def Proper : List RtspEvent → Prop
  | [] => True
  | .sent channelId isKeyframe _ :: log =>
      channelOf log = some channelId ∧ (isKeyframe = true ∨ KeyframeSince channelId log) ∧
        .teardown ∉ log ∧ Proper log
  | _ :: log => Proper log

instance instDecidableKeyframeSince (channelId : ℤ) :
    ∀ log : List RtspEvent, Decidable (KeyframeSince channelId log)
  | [] | .setup _ :: _ | .play :: _ => inferInstanceAs (Decidable False)
  | .teardown :: log => instDecidableKeyframeSince channelId log
  | .sent id isKeyframe _ :: log =>
      haveI := instDecidableKeyframeSince channelId log
      inferInstanceAs (Decidable (id = channelId ∧ isKeyframe = true ∨ KeyframeSince channelId log))

instance instDecidableProper : ∀ log : List RtspEvent, Decidable (Proper log)
  | [] => inferInstanceAs (Decidable True)
  | .sent channelId isKeyframe _ :: log =>
      haveI := instDecidableProper log
      inferInstanceAs (Decidable (channelOf log = some channelId ∧
        (isKeyframe = true ∨ KeyframeSince channelId log) ∧ .teardown ∉ log ∧ Proper log))
  | .setup _ :: log | .play :: log | .teardown :: log => instDecidableProper log

/-- A `SETUP` after the last keyframe that was sent. -/
def SetUpAnew : List RtspEvent → Prop
  | [] | .sent _ true _ :: _ => False
  | .setup _ :: _ => True
  | _ :: log => SetUpAnew log

/-- A keyframe was sent since the last `PLAY`. -/
def KeyframeSincePlay : List RtspEvent → Prop
  | [] | .play :: _ => False
  | .sent _ true _ :: _ => True
  | _ :: log => KeyframeSincePlay log

/-- A keyframe since the last `PLAY` came after the last `SETUP`, or before it. -/
theorem keyframeSince_iff {log : List RtspEvent} {channelId : ℤ} (hproper : Proper log)
    (hplay : KeyframeSincePlay log) (hchannel : channelOf log = some channelId) :
    KeyframeSince channelId log ↔ ¬ SetUpAnew log := by
  induction log with
  | nil => exact absurd hplay id
  | cons event log ih =>
      cases event with
      | setup => exact iff_of_false id (fun h => h trivial)
      | play => exact absurd hplay id
      | teardown => exact ih hproper hplay hchannel
      | sent sentTo isKeyframe packets =>
          have hsame : sentTo = channelId := by
            have heq := hproper.1.symm.trans hchannel
            exact Option.some.inj heq
          cases isKeyframe with
          | true => exact iff_of_true (.inl ⟨hsame, rfl⟩) id
          | false =>
              have hrest := ih hproper.2.2.2 hplay hchannel
              refine Iff.trans (or_iff_right ?_) hrest
              exact fun h => absurd h.2 (by simp)

end RtspEvent

open RtspEvent

namespace RtspSession

/-- What the fields of a session say about its log. -/
structure Linked (session : RtspSession) : Prop where
  channelId : ∀ channelId, channelOf session.log = some channelId → session.channelId = channelId
  packetizer : session.packetizer = none ↔ channelOf session.log = none
  gotKeyframe : session.gotKeyframe = true →
    session.packetizer ≠ none ∧ KeyframeSincePlay session.log
  active : .teardown ∈ session.log → session.active = false

theorem Linked.start : Linked {} :=
  ⟨fun _ h => absurd h (by simp [channelOf]), iff_of_true rfl rfl, fun h => absurd h (by simp),
    fun h => absurd h List.not_mem_nil⟩

/-- A frame that is sent to a session: a keyframe if the session was set up anew, and not a keyframe
if it never was. -/
def TakesFrame (channelId : ℤ) (frame : RtspFrame) (session : RtspSession) : Prop :=
  session.Watches channelId →
    (session.packetizer = none → frame.isKeyframe = false) ∧
    (session.gotKeyframe = true → SetUpAnew session.log → frame.isKeyframe = true)

variable {session : RtspSession}

theorem Linked.handle (h : session.Linked) (server : RtspServer) (text newId : String) :
    (session.handle server text newId).1.Linked := by
  rcases session.handle_cases server text newId with hsame |
      ⟨hactive, ⟨channelId, packetizer, hsetup⟩ | hplay | hteardown⟩
  · rw [hsame]
    exact h
  · rw [hsetup]
    refine ⟨fun _ hchannel => Option.some.inj hchannel, iff_of_false (by simp) (by simp [channelOf]),
      fun hgot => ⟨by simp, (h.gotKeyframe hgot).2⟩, fun hmem => h.active ?_⟩
    simpa using hmem
  · rw [hplay]
    refine ⟨h.channelId, h.packetizer, fun hgot => absurd hgot (by simp), fun hmem => h.active ?_⟩
    simpa using hmem
  · rw [hteardown]
    exact ⟨h.channelId, h.packetizer, h.gotKeyframe, fun _ => rfl⟩

theorem Linked.close (h : session.Linked) : session.close.Linked :=
  ⟨h.channelId, h.packetizer, h.gotKeyframe, fun _ => rfl⟩

/-- A request sends no frame. -/
theorem proper_handle (h : Proper session.log) (server : RtspServer) (text newId : String) :
    Proper (session.handle server text newId).1.log := by
  rcases session.handle_cases server text newId with hsame |
      ⟨hactive, ⟨channelId, packetizer, hsetup⟩ | hplay | hteardown⟩
  · rw [hsame]
    exact h
  · rw [hsetup]
    exact h
  · rw [hplay]
    exact h
  · rw [hteardown]
    exact h

/-- A session that is sent frames has not been torn down, and frames of its channel are what it
watches. -/
theorem Linked.sent (h : session.Linked) {channelId : ℤ} (hwatch : session.Watches channelId)
    (hpacketizer : session.packetizer ≠ none) :
    channelOf session.log = some channelId ∧ .teardown ∉ session.log := by
  obtain ⟨hchannel, -, hactive⟩ := hwatch
  constructor
  · obtain ⟨last, hlast⟩ := Option.ne_none_iff_exists'.mp fun hnone =>
      hpacketizer (h.packetizer.mpr hnone)
    rw [hlast, ← h.channelId last hlast, hchannel]
  · intro hmem
    rw [h.active hmem] at hactive
    exact absurd hactive (by simp)

theorem Linked.pushFrame (h : session.Linked) {channelId : ℤ} {frame : RtspFrame}
    {session' : RtspSession} (hpush : session.pushFrame channelId frame = some session') :
    session'.Linked := by
  by_cases hskip : session.Watches channelId →
      session.gotKeyframe = false ∧ frame.isKeyframe = false
  · rw [pushFrame_of_skip hskip] at hpush
    exact Option.some.inj hpush ▸ h
  · push Not at hskip
    obtain ⟨hwatch, hkey⟩ := hskip
    have hsends : session.gotKeyframe = true ∨ frame.isKeyframe = true := by
      simpa [or_iff_not_imp_left] using hkey
    rw [pushFrame_of_watches hwatch hsends, Option.map_eq_some_iff] at hpush
    obtain ⟨packetizer, hpacketizer, rfl⟩ := hpush
    have hsome : session.packetizer ≠ none := by simp [hpacketizer]
    refine ⟨h.channelId, iff_of_false (by simp) fun hnone => hsome (h.packetizer.mpr hnone),
      fun _ => ⟨by simp, ?_⟩, fun hmem => h.active ?_⟩
    · cases hframe : frame.isKeyframe with
      | true => trivial
      | false =>
          have hgot := hsends.resolve_right (by simp [hframe])
          exact (h.gotKeyframe hgot).2
    · simpa using hmem

/-- **A frame and a session**: there is a packetizer to call, and what is sent is proper, exactly
if the session takes the frame. -/
theorem proper_pushFrame_iff (h : session.Linked) (hproper : Proper session.log) (channelId : ℤ)
    (frame : RtspFrame) :
    (∃ session', session.pushFrame channelId frame = some session' ∧ Proper session'.log) ↔
      session.TakesFrame channelId frame := by
  by_cases hskip : session.Watches channelId →
      session.gotKeyframe = false ∧ frame.isKeyframe = false
  · refine iff_of_true ⟨session, pushFrame_of_skip hskip, hproper⟩ fun hwatch => ?_
    obtain ⟨hgot, hkey⟩ := hskip hwatch
    exact ⟨fun _ => hkey, fun hgot' => absurd hgot' (by simp [hgot])⟩
  · push Not at hskip
    obtain ⟨hwatch, hkey⟩ := hskip
    have hsends : session.gotKeyframe = true ∨ frame.isKeyframe = true := by
      simpa [or_iff_not_imp_left] using hkey
    rw [pushFrame_of_watches hwatch hsends]
    cases hpacketizer : session.packetizer with
    | none =>
        -- no keyframe was sent before, so this one is called for
        have hgot : session.gotKeyframe ≠ true := fun hgot => (h.gotKeyframe hgot).1 hpacketizer
        have hframe := hsends.resolve_left hgot
        refine iff_of_false (by simp) fun htakes => ?_
        exact absurd ((htakes hwatch).1 hpacketizer) (by simp [hframe])
    | some packetizer =>
        obtain ⟨hchannel, hteardown⟩ := h.sent hwatch (by simp [hpacketizer])
        rw [Option.map_some]
        constructor
        · rintro ⟨session', hsession', hproper'⟩ -
          obtain rfl := Option.some.inj hsession'
          refine ⟨fun hnone => absurd hnone (by simp [hpacketizer]), fun hgot hanew => ?_⟩
          refine hproper'.2.1.resolve_right fun hsince => ?_
          exact (keyframeSince_iff hproper (h.gotKeyframe hgot).2 hchannel).mp hsince hanew
        · intro htakes
          refine ⟨_, rfl, hchannel, ?_, hteardown, hproper⟩
          by_cases hframe : frame.isKeyframe = true
          · exact .inl hframe
          · have hgot := hsends.resolve_right hframe
            refine .inr ((keyframeSince_iff hproper (h.gotKeyframe hgot).2 hchannel).mpr ?_)
            exact fun hanew => hframe ((htakes hwatch).2 hgot hanew)

end RtspSession

namespace RtspServer

/-- No null packetizer was called, and every session's log is proper. -/
def StartsOnKeyframes : Option RtspServer → Prop
  | none => False
  | some server => ∀ session ∈ server.sessions, Proper session.log

instance : DecidablePred StartsOnKeyframes
  | none => inferInstanceAs (Decidable False)
  | some server => inferInstanceAs (Decidable (∀ session ∈ server.sessions, Proper session.log))

/-- Every session takes a frame that is pushed. -/
def SessionsTake : Option RtspServer → Action → Prop
  | some server, .pushFrame channelId frame =>
      ∀ session ∈ server.sessions, session.TakesFrame channelId frame
  | _, _ => True

/-- Every session is as its log says. -/
def AllLinked (server : Option RtspServer) : Prop :=
  ∀ server' ∈ server, ∀ session ∈ server'.sessions, session.Linked

/-- One function at each element, if it has a value at all of them. -/
theorem exists_mapM_iff {α β : Type*} {f : α → Option β} {p : β → Prop} {l : List α} :
    (∃ l', l.mapM f = some l' ∧ ∀ b ∈ l', p b) ↔ ∀ a ∈ l, ∃ b, f a = some b ∧ p b := by
  induction l with
  | nil => simp
  | cons a l ih =>
      rw [List.forall_mem_cons, ← ih, List.mapM_cons]
      cases f a with
      | none => simp
      | some b => cases l.mapM f <;> simp [and_comm]

theorem forall_mem_modify {α : Type*} {p : α → Prop} {l : List α} {f : α → α}
    (hl : ∀ a ∈ l, p a) (hf : ∀ a ∈ l, p (f a)) (i : ℕ) : ∀ a ∈ l.modify i f, p a := by
  intro a ha
  obtain ⟨j, hj⟩ := List.mem_iff_getElem?.mp ha
  rw [List.getElem?_modify] at hj
  obtain ⟨b, hb, rfl⟩ := Option.map_eq_some_iff.mp hj
  have hmem := List.mem_of_getElem? hb
  split
  · exact hf b hmem
  · exact hl b hmem

theorem exists_of_mem_mapM {α β : Type*} {f : α → Option β} {l : List α} {l' : List β}
    (h : l.mapM f = some l') {b : β} (hb : b ∈ l') : ∃ a ∈ l, f a = some b := by
  have hvalues : ∀ a ∈ l, ∃ b, f a = some b ∧ True := exists_mapM_iff.mp ⟨l', h, by simp⟩
  have hfrom : ∀ a ∈ l, ∃ b, f a = some b ∧ ∃ a ∈ l, f a = some b := fun a ha => by
    obtain ⟨b, hb, -⟩ := hvalues a ha
    exact ⟨b, hb, a, ha, hb⟩
  obtain ⟨l'', hl'', hall⟩ := exists_mapM_iff.mpr hfrom
  obtain rfl := Option.some.inj (h.symm.trans hl'')
  exact hall b hb

theorem AllLinked.step {server : Option RtspServer} (h : AllLinked server) (action : Action) :
    AllLinked (step server action) := by
  cases server with
  | none => exact h
  | some server =>
      have hall := h server rfl
      intro server' hstep
      cases action with
      | registerChannel channelId info =>
          obtain rfl := Option.some.inj hstep
          exact hall
      | unregisterChannel channelId =>
          obtain rfl := Option.some.inj hstep
          exact hall
      | accept =>
          obtain rfl := Option.some.inj hstep
          intro session hsession
          rcases List.mem_append.mp hsession with hsession | hsession
          · exact hall session hsession
          · -- the new session
            rw [List.mem_singleton.mp hsession]
            exact .start
      | receive client text newId =>
          obtain rfl := Option.some.inj hstep
          exact forall_mem_modify hall
            (fun session hsession => (hall session hsession).handle server text newId) client
      | close client =>
          obtain rfl := Option.some.inj hstep
          exact forall_mem_modify hall (fun session hsession => (hall session hsession).close) client
      | pushFrame channelId frame =>
          obtain ⟨sessions, hsessions, rfl⟩ := Option.map_eq_some_iff.mp hstep
          intro session hsession
          obtain ⟨old, hold, hpush⟩ := exists_of_mem_mapM hsessions hsession
          exact (hall old hold).pushFrame hpush

/-- **One step.** -/
theorem startsOnKeyframes_step {server : Option RtspServer} (hlinked : AllLinked server)
    (h : StartsOnKeyframes server) (action : Action) :
    StartsOnKeyframes (step server action) ↔ SessionsTake server action := by
  cases server with
  | none => exact absurd h id
  | some server =>
      have hall := hlinked server rfl
      cases action with
      | registerChannel channelId info => exact iff_of_true h trivial
      | unregisterChannel channelId => exact iff_of_true h trivial
      | accept =>
          refine iff_of_true (fun session hsession => ?_) trivial
          rcases List.mem_append.mp hsession with hsession | hsession
          · exact h session hsession
          · rw [List.mem_singleton.mp hsession]
            trivial
      | receive client text newId =>
          refine iff_of_true (forall_mem_modify h (fun session hsession => ?_) client) trivial
          exact RtspSession.proper_handle (h session hsession) server text newId
      | close client =>
          have hlogs : ∀ session ∈ server.sessions, Proper session.close.log := h
          exact iff_of_true (forall_mem_modify h hlogs client) trivial
      | pushFrame channelId frame =>
          have heach : ∀ session ∈ server.sessions,
              ((∃ session', session.pushFrame channelId frame = some session' ∧
                Proper session'.log) ↔ session.TakesFrame channelId frame) :=
            fun session hsession => RtspSession.proper_pushFrame_iff (hall session hsession)
              (h session hsession) channelId frame
          refine Iff.trans ?_ (forall₂_congr heach)
          rw [← exists_mapM_iff]
          show StartsOnKeyframes (server.pushFrame channelId frame) ↔ _
          rw [RtspServer.pushFrame]
          cases server.sessions.mapM (RtspSession.pushFrame channelId frame) with
          | none => simp [StartsOnKeyframes]
          | some sessions => simp [StartsOnKeyframes]

/-- **What is sent starts on a keyframe** of the session's channel, nothing is sent after a
`TEARDOWN` and no null packetizer is called, at every point of a run, exactly if at every frame
pushed each session takes it. -/
theorem startsOnKeyframes_iff (host : String) (actions : List Action) :
    Along step StartsOnKeyframes (some { host := host }) actions ↔
      EveryStep step SessionsTake (some { host := host }) actions := by
  have hstep : ∀ server action, StartsOnKeyframes server ∧ AllLinked server →
      ((StartsOnKeyframes (step server action) ∧ AllLinked (step server action)) ↔
        SessionsTake server action) := by
    rintro server action ⟨h, hlinked⟩
    rw [startsOnKeyframes_step hlinked h, and_iff_left (hlinked.step action)]
  have hstart : StartsOnKeyframes (some { host := host }) ∧ AllLinked (some { host := host }) := by
    refine ⟨fun _ hsession => absurd hsession List.not_mem_nil, fun server hserver => ?_⟩
    obtain rfl := Option.some.inj hserver
    exact fun _ hsession => absurd hsession List.not_mem_nil
  rw [← along_iff_everyStep hstep hstart]
  constructor
  · intro h
    exact h.strengthen (fun server action _ hlinked => hlinked.step action) hstart.2
  · exact fun h => h.mono fun _ hboth => hboth.1

/-- A session that plays one channel and is set up for another. -/
def channelChange : List Action :=
  [.registerChannel 1 {}, .registerChannel 2 {}, .accept,
    .receive 0 "SETUP rtsp://nvr/live/ch1 RTSP/1.0" "a",
    .receive 0 "PLAY rtsp://nvr/live/ch1 RTSP/1.0" "",
    .pushFrame 1 ⟨[0, 0, 0, 1, 0x65, 0x88], 0, true⟩,
    .receive 0 "SETUP rtsp://nvr/live/ch2 RTSP/1.0" "b",
    .pushFrame 2 ⟨[0, 0, 0, 1, 0x41, 0x9A], 40000, false⟩]

/-- The first frame of the new channel is no keyframe. -/
theorem startsOnKeyframes_refuted :
    ¬ Along step StartsOnKeyframes (some { host := "nvr" }) channelChange := by
  intro h
  exact absurd h.last (by decide +kernel)

end RtspServer

end LoongNvr.Network
