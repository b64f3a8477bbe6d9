import LoongNvr.Storage.PlaybackSafety

/-!
# Storage — WholeRecording

What is read of a range of segments from `Open` to the end of the stream.  `AdvanceToNextSegment`
has one answer for a segment that cannot be opened and for the end of the list.

* `wholeRecording`: the video frames of all segments that open, above 1x the keyframes of them.
* `readLoop_ahead`: one read gives the first of the frames ahead and leaves the others ahead.
* `yields_ahead`: reads until the end give the frames ahead, which stop at an unreadable segment.
* `playsWhole_iff`: exactly when the recording is read whole.
-/

namespace LoongNvr.Storage

/-! ### What a recording holds -/

namespace OpenOutcome

/-- The file opens, and it has a video stream. -/
def playable : OpenOutcome → Bool
  | .opened ctx => (ctx.streams.findIdx? (·.isVideo)).isSome
  | _ => false

/-- The frames of a file: the packets of its first video stream, in their order. -/
def videoFrames : OpenOutcome → List PlaybackFrame
  | .opened ctx =>
      match ctx.streams.findIdx? (·.isVideo) with
      | some i => (ctx.streams[i]?).toList.flatMap fun stream =>
          (ctx.packets.filter fun pkt => pkt.streamIndex = (i : ℤ)).map (Playback.frameOf stream)
      | none => []
  | _ => []

end OpenOutcome

/-- The segment's file can be played. -/
def readable (files : Files) (segment : SegmentInfo) : Bool := (files segment.filePath).playable

/-- At a speed above 1x the keyframes alone. -/
def atSpeed (speed : PlaybackSpeed) (frames : List PlaybackFrame) : List PlaybackFrame :=
  if speed.toInt > 1 then frames.filter (·.isKeyframe) else frames

/-- The frames of the segments that open, in segment order and packet order. -/
def wholeRecording (speed : PlaybackSpeed) (files : Files) (segments : List SegmentInfo) :
    List PlaybackFrame :=
  atSpeed speed (segments.flatMap fun segment => (files segment.filePath).videoFrames)

/-- The frames of one segment at a speed. -/
def segmentFrames (speed : PlaybackSpeed) (files : Files) (segment : SegmentInfo) :
    List PlaybackFrame := atSpeed speed (files segment.filePath).videoFrames

theorem readable_iff {files : Files} {segment : SegmentInfo} :
    readable files segment = true ↔ ∃ ctx i, files segment.filePath = .opened ctx ∧
      ctx.streams.findIdx? (·.isVideo) = some i := by
  rw [readable]
  cases files segment.filePath with
  | opened ctx =>
      rw [OpenOutcome.playable, Option.isSome_iff_exists]
      simp
  | failed => simp [OpenOutcome.playable]
  | noStreamInfo => simp [OpenOutcome.playable]

theorem wholeRecording_eq (speed : PlaybackSpeed) (files : Files) (segments : List SegmentInfo) :
    wholeRecording speed files segments = segments.flatMap (segmentFrames speed files) := by
  unfold wholeRecording segmentFrames
  by_cases hspeed : speed.toInt > 1
  · simp only [atSpeed, if_pos hspeed, List.filter_flatMap]
  · simp only [atSpeed, if_neg hspeed]

namespace Playback

variable {files : Files} {p : Playback} {frames : List PlaybackFrame}

/-! ### Reading on -/

/-- What the loop of `ReadNextPacket` does not skip. -/
def wanted (speed : PlaybackSpeed) (videoStreamIdx : ℤ) (pkt : Packet) : Bool :=
  pkt.streamIndex = videoStreamIdx && (decide (speed.toInt ≤ 1) || pkt.isKey)

theorem filter_of_nextPacket {speed : PlaybackSpeed} {videoStreamIdx : ℤ} {packets : List Packet}
    {pkt : Packet} {rest : List Packet}
    (h : nextPacket speed videoStreamIdx packets = some (pkt, rest)) :
    packets.filter (wanted speed videoStreamIdx) =
      pkt :: rest.filter (wanted speed videoStreamIdx) := by
  fun_induction nextPacket speed videoStreamIdx packets with
  | case1 => cases h
  | case2 _ _ hstream ih => rw [List.filter_cons_of_neg (by simp [wanted, hstream]), ih h]
  | case3 _ _ _ hskip ih =>
      have hkey := hskip.2
      rw [List.filter_cons_of_neg (by simp_all [wanted]), ih h]
  | case4 _ _ hstream hskip =>
      cases h
      rw [List.filter_cons_of_pos]
      simp only [not_not, not_and] at hstream hskip
      simp only [wanted, hstream, decide_true, Bool.true_and, Bool.or_eq_true, decide_eq_true_eq]
      rcases le_or_gt speed.toInt 1 with hslow | hfast
      · exact .inl hslow
      · exact .inr (by simpa using hskip hfast)

theorem filter_of_nextPacket_none {speed : PlaybackSpeed} {videoStreamIdx : ℤ}
    {packets : List Packet} (h : nextPacket speed videoStreamIdx packets = none) :
    packets.filter (wanted speed videoStreamIdx) = [] := by
  fun_induction nextPacket speed videoStreamIdx packets with
  | case1 => rfl
  | case2 _ _ hstream ih => rw [List.filter_cons_of_neg (by simp [wanted, hstream]), ih h]
  | case3 _ _ _ hskip ih =>
      have hkey := hskip.2
      rw [List.filter_cons_of_neg (by simp_all [wanted]), ih h]
  | case4 => cases h

/-- The frames of the segments up to the first that cannot be opened. -/
def upToUnreadable (speed : PlaybackSpeed) (files : Files) (segments : List SegmentInfo) :
    List PlaybackFrame :=
  (segments.takeWhile (readable files)).flatMap (segmentFrames speed files)

/-- What is left of the open file, and of the segments after it up to an unreadable one. -/
def Ahead (files : Files) (p : Playback) (frames : List PlaybackFrame) : Prop :=
  ∃ ctx stream, p.useFile = .ok ctx ∧ p.videoStream ctx = .ok stream ∧
    frames = (ctx.packets.filter (wanted p.speed p.videoStreamIdx)).map (frameOf stream) ++
      upToUnreadable p.speed files (p.segments.drop (p.currentSegmentIdx + 1))

/-- **A segment that opens**: its frames are ahead, and those of the segments after it. -/
theorem openSegmentFile_ahead {segment : SegmentInfo} {segments : List SegmentInfo}
    (hdrop : p.segments.drop p.currentSegmentIdx = segment :: segments)
    (h : readable files segment = true) :
    (p.openSegmentFile files segment.filePath).2 = true ∧
      Ahead files (p.openSegmentFile files segment.filePath).1
        (upToUnreadable p.speed files (segment :: segments)) := by
  obtain ⟨ctx, i, hctx, hi⟩ := readable_iff.mp h
  obtain ⟨hlt, -, -⟩ := List.findIdx?_eq_some_iff_getElem.mp hi
  have hidx : p.currentSegmentIdx < p.segments.length := by
    by_contra hge
    rw [List.drop_eq_nil_of_le (not_lt.mp hge)] at hdrop
    cases hdrop
  have htail : p.segments.drop (p.currentSegmentIdx + 1) = segments := by
    rw [← List.tail_drop, hdrop, List.tail_cons]
  have hframes : segmentFrames p.speed files segment =
      (ctx.packets.filter (wanted p.speed i)).map (frameOf ctx.streams[i]) := by
    have hkey : ∀ stream : Stream, ((fun frame : PlaybackFrame => frame.isKeyframe) ∘
        frameOf stream) = Packet.isKey := fun _ => rfl
    simp only [segmentFrames, atSpeed, hctx, OpenOutcome.videoFrames, hi,
      List.getElem?_eq_getElem hlt, Option.toList_some, List.flatMap_singleton]
    by_cases hspeed : p.speed.toInt > 1
    · simp only [if_pos hspeed, List.filter_map, hkey, List.filter_filter]
      refine congrArg _ (List.filter_congr fun pkt _ => ?_)
      simp [wanted, not_le.mpr hspeed, Bool.and_comm]
    · rw [if_neg hspeed]
      refine congrArg _ (List.filter_congr fun pkt _ => ?_)
      simp [wanted, not_lt.mp hspeed]
  simp only [openSegmentFile, hctx, hi]
  refine ⟨trivial, ctx, ctx.streams[i], useFile_eq rfl hidx, ?_, ?_⟩
  · simp [videoStream, hlt]
  · rw [upToUnreadable, List.takeWhile_cons_of_pos h, List.flatMap_cons, hframes]
    exact congrArg (_ ++ upToUnreadable p.speed files ·) htail.symm

/-- **One read** gives the first of the frames ahead and leaves the others ahead; with none ahead
it comes to the end of the stream. -/
theorem readLoop_ahead (files : Files) (p : Playback) {frames : List PlaybackFrame}
    (h : Ahead files p frames) :
    (frames = [] ∧ ∃ p', p.readLoop files = .ok (p', none) ∧ p'.state = .endOfStream) ∨
      ∃ frame rest p', frames = frame :: rest ∧ p.readLoop files = .ok (p', some frame) ∧
        Ahead files p' rest ∧ p'.state = p.state := by
  fun_induction readLoop files p generalizing frames with
  | case1 p fault hfault =>
      obtain ⟨ctx, -, hctx, -⟩ := h
      cases hctx.symm.trans hfault
  | case2 p ctx hctx pkt packets hnext =>
      obtain ⟨_, stream, hsame, hstream, rfl⟩ := h
      obtain rfl := Except.ok.inj (hctx.symm.trans hsame)
      have hrest : Ahead files (p.delivered ctx (frameOf stream pkt) packets)
          ((packets.filter (wanted p.speed p.videoStreamIdx)).map (frameOf stream) ++
            upToUnreadable p.speed files (p.segments.drop (p.currentSegmentIdx + 1))) :=
        ⟨{ ctx with packets := packets }, stream, useFile_eq rfl (useFile_ok hctx).2, hstream, rfl⟩
      refine .inr ⟨frameOf stream pkt, _, _, ?_, ?_, hrest, rfl⟩
      · rw [filter_of_nextPacket hnext, List.map_cons, List.cons_append]
      · rw [deliver, hstream]
        rfl
  | case3 p ctx hctx hnext fault hfault =>
      obtain ⟨p', opened, hadvance, -⟩ := advanceToNextSegment_ok files p
      cases hadvance.symm.trans hfault
  | case4 p ctx hctx hnext p' hend =>
      obtain ⟨_, stream, hsame, -, rfl⟩ := h
      obtain rfl := Except.ok.inj (hctx.symm.trans hsame)
      refine .inl ⟨?_, _, rfl, rfl⟩
      rw [filter_of_nextPacket_none hnext, List.map_nil, List.nil_append]
      -- the end of the list, or a segment that cannot be opened
      rcases Nat.lt_or_ge (p.currentSegmentIdx + 1) p.segments.length with hlt | hge
      · rw [List.drop_eq_getElem_cons hlt, upToUnreadable, List.takeWhile_cons_of_neg,
          List.flatMap_nil]
        intro hplayable
        have hopen := (openSegmentFile_ahead (p := p.toNextSegment)
          (List.drop_eq_getElem_cons hlt) hplayable).1
        rw [advanceToNextSegment_next files hlt] at hend
        rw [Except.ok.inj hend] at hopen
        cases hopen
      · rw [List.drop_eq_nil_of_le hge]
        rfl
  | case5 p ctx hctx hnext p' hmore ih =>
      obtain ⟨_, stream, hsame, -, rfl⟩ := h
      obtain rfl := Except.ok.inj (hctx.symm.trans hsame)
      obtain ⟨-, -, hlt⟩ := lt_of_advanceToNextSegment hmore
      rw [advanceToNextSegment_next files hlt] at hmore
      have hadvanced := Except.ok.inj hmore
      have hplayable : readable files p.segments[p.currentSegmentIdx + 1] = true := by
        have hopened := congrArg Prod.snd hadvanced
        rw [openSegmentFile] at hopened
        split at hopened
        · cases hopened
        · cases hopened
        next ctx' hctx' =>
          split at hopened
          next i hi => rw [readable, hctx', OpenOutcome.playable, hi]; rfl
          next => cases hopened
      have hahead := (openSegmentFile_ahead (p := p.toNextSegment)
        (List.drop_eq_getElem_cons hlt) hplayable).2
      obtain ⟨ctx₁, i₁, hkept⟩ := openSegmentFile_kept files
        p.segments[p.currentSegmentIdx + 1].filePath p.toNextSegment
      have hstate : p'.state = p.state := by
        have hsame := congrArg state hkept
        rwa [hadvanced] at hsame
      rw [filter_of_nextPacket_none hnext, List.map_nil, List.nil_append,
        List.drop_eq_getElem_cons hlt, ← hstate]
      rw [hadvanced] at hahead
      exact ih hahead

/-! ### Reading to the end -/

/-- `ReadNextPacket` until it reports the end of the stream: the frames read, in their order. -/
def readAll (files : Files) : ℕ → Playback → Option (List PlaybackFrame)
  | 0, _ => none
  | fuel + 1, p =>
      match p.readNextPacket files with
      | .ok (p', some frame) => (readAll files fuel p').map (frame :: ·)
      | .ok (p', none) => if p'.state = .endOfStream then some [] else none
      | .error _ => none

/-- Reads come to the end of the stream, and these are the frames read. -/
def Yields (files : Files) (p : Playback) (frames : List PlaybackFrame) : Prop :=
  ∃ fuel, readAll files fuel p = some frames

theorem readNextPacket_playing (files : Files) (h : p.state = .playing) :
    p.readNextPacket files = p.readLoop files := if_neg (not_not.mpr h)

/-- **Reads until the end** give the frames ahead, in one read more than there are frames. -/
theorem readAll_ahead (h : Ahead files p frames) (hplay : p.state = .playing) :
    readAll files (frames.length + 1) p = some frames := by
  induction frames generalizing p with
  | nil =>
      obtain ⟨-, p', hread, hend⟩ | ⟨_, _, _, hcons, -⟩ := readLoop_ahead files p h
      · simp only [readAll, readNextPacket_playing files hplay, hread, hend, if_true]
      · cases hcons
  | cons frame rest ih =>
      obtain ⟨hnil, -⟩ | ⟨_, _, p', hcons, hread, hahead, hstate⟩ := readLoop_ahead files p h
      · cases hnil
      · obtain ⟨rfl, rfl⟩ := List.cons_eq_cons.mp hcons
        rw [List.length_cons, readAll, readNextPacket_playing files hplay, hread]
        simp only [ih hahead (hstate.trans hplay), Option.map_some]

/-- With more reads the answer is the same. -/
theorem readAll_succ {fuel : ℕ} (h : readAll files fuel p = some frames) :
    readAll files (fuel + 1) p = some frames := by
  induction fuel generalizing p frames with
  | zero => cases h
  | succ fuel ih =>
      rw [readAll] at h ⊢
      split
      · next p' frame hread =>
          rw [hread] at h
          obtain ⟨rest, hrest, rfl⟩ := Option.map_eq_some_iff.mp h
          rw [ih hrest, Option.map_some]
      · next p' hread =>
          rw [hread] at h
          exact h
      · next fault hread =>
          rw [hread] at h
          cases h

theorem Yields.unique {frames' : List PlaybackFrame} (h : Yields files p frames)
    (h' : Yields files p frames') : frames = frames' := by
  have hmore : ∀ {frames n} k, readAll files n p = some frames →
      readAll files (n + k) p = some frames := by
    intro frames n k hn
    induction k with
    | zero => exact hn
    | succ k ih => exact readAll_succ ih
  obtain ⟨n, hn⟩ := h
  obtain ⟨n', hn'⟩ := h'
  have hleft := hmore n' hn
  rw [Nat.add_comm, hmore n hn'] at hleft
  exact (Option.some.inj hleft).symm

theorem yields_iff (h : Ahead files p frames) (hplay : p.state = .playing)
    {frames' : List PlaybackFrame} : Yields files p frames' ↔ frames' = frames := by
  have hyields : Yields files p frames := ⟨_, readAll_ahead h hplay⟩
  exact ⟨fun h' => h'.unique hyields, fun e => e ▸ hyields⟩

/-- A playback of these segments is opened. -/
theorem openRange_ahead (channelId startTimeMs endTimeMs : ℤ) {first : SegmentInfo}
    (later : List SegmentInfo) (p : Playback) (h : readable files first = true) :
    ∃ p', p.openRange channelId startTimeMs endTimeMs (first :: later) files = .ok (p', true) ∧
      p'.state = .playing ∧ Ahead files p' (upToUnreadable p.speed files (first :: later)) := by
  have hspeed : (if p.state ≠ .idle then p.close else p).speed = p.speed := by
    split <;> rfl
  rw [openRange]
  generalize (if p.state ≠ .idle then p.close else p) = q at hspeed
  rw [if_neg (List.cons_ne_nil _ _)]
  simp only [segmentAt, List.getElem?_cons_zero, bind, Except.bind]
  obtain ⟨hopened, ctx, stream, hctx, hstream, hframes⟩ := openSegmentFile_ahead
    (p := { q with
      channelId := channelId, startTimeMs := startTimeMs, endTimeMs := endTimeMs
      segments := first :: later, currentSegmentIdx := 0 }) List.drop_zero h
  rw [hopened]
  refine ⟨_, rfl, rfl, ctx, stream, hctx, hstream, ?_⟩
  rw [← hspeed]
  exact hframes

end Playback

/-! ### The whole recording -/

/-- A fresh `Open` of the segments succeeds, and reading until the end of the stream yields the
whole recording. -/
def PlaysWhole (speed : PlaybackSpeed) (files : Files) (segments : List SegmentInfo) : Prop :=
  ∀ (p : Playback) (channelId startTimeMs endTimeMs : ℤ), p.speed = speed →
    ∃ p', p.openRange channelId startTimeMs endTimeMs segments files = .ok (p', true) ∧
      p'.Yields files (wholeRecording speed files segments)

section
variable (speed : PlaybackSpeed) {files : Files} {first : SegmentInfo} (later : List SegmentInfo)

/-- What is read of a recording whose first segment opens. -/
theorem playsWhole_iff_upToUnreadable (hfirst : readable files first = true) :
    PlaysWhole speed files (first :: later) ↔
      wholeRecording speed files (first :: later) =
        Playback.upToUnreadable speed files (first :: later) := by
  constructor
  · intro h
    obtain ⟨p', hopen, hyields⟩ := h { speed := speed } 0 0 0 rfl
    obtain ⟨_, hsame, hplay, hahead⟩ :=
      Playback.openRange_ahead 0 0 0 later { speed := speed } hfirst
    cases hopen.symm.trans hsame
    exact (Playback.yields_iff hahead hplay).mp hyields
  · rintro h p channelId startTimeMs endTimeMs rfl
    obtain ⟨p', hopen, hplay, hahead⟩ :=
      Playback.openRange_ahead channelId startTimeMs endTimeMs later p hfirst
    exact ⟨p', hopen, (Playback.yields_iff hahead hplay).mpr h⟩

/-- **A recording whose first segment opens is played whole** exactly if no segment behind an
unreadable one has a frame for the speed. -/
theorem playsWhole_iff (hfirst : readable files first = true) :
    PlaysWhole speed files (first :: later) ↔
      ∀ segment ∈ later.dropWhile (readable files), segmentFrames speed files segment = [] := by
  have hsplit : wholeRecording speed files (first :: later) =
      Playback.upToUnreadable speed files (first :: later) ++
        (later.dropWhile (readable files)).flatMap (segmentFrames speed files) := by
    rw [wholeRecording_eq, Playback.upToUnreadable, List.takeWhile_cons_of_pos hfirst,
      ← List.flatMap_append, List.cons_append, List.takeWhile_append_dropWhile]
  rw [playsWhole_iff_upToUnreadable speed later hfirst, hsplit, List.append_right_eq_self,
    List.flatMap_eq_nil_iff]

end

/-- A file with a keyframe of video. -/
def oneFrame : OpenOutcome := .opened ⟨[⟨true, ⟨1, 1000⟩, 640, 360⟩], [⟨0, true, [1], 0, 0⟩]⟩

/-- The second of these files is missing. -/
def secondMissing : Files := fun path => if path = "b.mp4" then .failed else oneFrame

/-- A missing segment at the end. -/
theorem playsWhole_missingLast :
    PlaysWhole .normal secondMissing [⟨0, 999, "a.mp4"⟩, ⟨1000, 1999, "b.mp4"⟩] :=
  (playsWhole_iff .normal _ (by decide +kernel)).mpr (by decide +kernel)

/-- A missing segment with another behind it. -/
theorem playsWhole_refuted :
    ¬ ∀ (speed : PlaybackSpeed) (files : Files) (first : SegmentInfo) (later : List SegmentInfo),
      readable files first = true → PlaysWhole speed files (first :: later) := by
  intro h
  have hfirst : readable secondMissing ⟨0, 999, "a.mp4"⟩ = true := by decide +kernel
  have hwhole := h .normal secondMissing ⟨0, 999, "a.mp4"⟩
    [⟨1000, 1999, "b.mp4"⟩, ⟨2000, 2999, "c.mp4"⟩] hfirst
  exact absurd ((playsWhole_iff_upToUnreadable .normal _ hfirst).mp hwhole) (by decide +kernel)

end LoongNvr.Storage
