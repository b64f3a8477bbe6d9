import LoongNvr.Storage.Playback
import LoongNvr.Support.Runs

/-!
# Storage — PlaybackSafety

Whether a playback session ever uses a file it has not open, or a segment it does not have.

* `Sound`: what links the state, the open file and the current segment after every call.
* `readLoop_ok`: `ReadNextPacket` never faults on a file that is open.
* `noFault_iff`: a session goes without a fault exactly when no `Seek` meets an empty list of
  segments or goes to the current segment while its file is closed.
-/

namespace LoongNvr.Storage
open Support

namespace Playback

/-- A file is open: it is of the current segment, and its video stream is there. -/
def Ready (p : Playback) : Prop :=
  ∃ ctx stream, p.useFile = .ok ctx ∧ p.videoStream ctx = .ok stream

/-- What holds of a playback object between calls. -/
structure Sound (p : Playback) : Prop where
  ready : p.fmtCtx ≠ none → p.Ready
  playing : p.state = .playing → p.fmtCtx ≠ none
  idle : p.state = .idle → p.fmtCtx = none

theorem useFile_closed {p : Playback} (h : p.fmtCtx = none) :
    p.useFile = .error .nullFmtCtx := by
  simp only [useFile, h]

theorem Ready.fmtCtx {p : Playback} (h : p.Ready) : p.fmtCtx ≠ none := by
  obtain ⟨ctx, stream, hctx, -⟩ := h
  intro hnone
  cases hctx.symm.trans (useFile_closed hnone)

theorem sound_of_ready {p : Playback} (h : p.Ready) (hstate : p.state ≠ .idle) : p.Sound :=
  ⟨fun _ => h, fun _ => h.fmtCtx, fun hidle => absurd hidle hstate⟩

theorem sound_of_closed {p : Playback} (h : p.fmtCtx = none) (hstate : p.state ≠ .playing) :
    p.Sound :=
  ⟨fun hopen => absurd h hopen, fun hplay => absurd hplay hstate, fun _ => h⟩

theorem useFile_eq {p : Playback} {ctx : FormatContext} (hctx : p.fmtCtx = some ctx)
    (hidx : p.currentSegmentIdx < p.segments.length) : p.useFile = .ok ctx := by
  simp only [useFile, hctx, if_pos hidx]

theorem useFile_ok {p : Playback} {ctx : FormatContext} (h : p.useFile = .ok ctx) :
    p.fmtCtx = some ctx ∧ p.currentSegmentIdx < p.segments.length := by
  simp only [useFile] at h
  split at h
  · cases h
  case h_2 found hctx =>
    split at h
    case isTrue hidx => exact ⟨hctx.trans (congrArg some (Except.ok.inj h)), hidx⟩
    case isFalse => cases h

/-- The file is open after `OpenSegmentFile` when it has succeeded, else none is. -/
theorem openSegmentFile_ready (files : Files) (path : String) {p : Playback}
    (hidx : p.currentSegmentIdx < p.segments.length) :
    ((p.openSegmentFile files path).2 = true ∧ (p.openSegmentFile files path).1.Ready) ∨
      ((p.openSegmentFile files path).2 = false ∧
        (p.openSegmentFile files path).1.fmtCtx = none) := by
  rw [openSegmentFile]
  split
  · exact .inr ⟨rfl, rfl⟩
  · exact .inr ⟨rfl, rfl⟩
  case h_3 ctx _ =>
    split
    case h_1 i hi =>
      obtain ⟨hlt, -, -⟩ := List.findIdx?_eq_some_iff_getElem.mp hi
      refine .inl ⟨rfl, ctx, ctx.streams[i], useFile_eq rfl hidx, ?_⟩
      simp [videoStream, hlt]
    case h_2 => exact .inr ⟨rfl, rfl⟩

/-! ### Reading -/

theorem deliver_ok {p : Playback} {ctx : FormatContext} {stream : Stream}
    (hctx : p.useFile = .ok ctx) (hstream : p.videoStream ctx = .ok stream)
    (pkt : Packet) (packets : List Packet) :
    ∃ p', p.deliver ctx pkt packets = .ok (p', some (frameOf stream pkt)) ∧ p'.Ready ∧
      p'.state = p.state := by
  refine ⟨p.delivered ctx (frameOf stream pkt) packets, by rw [deliver, hstream]; rfl, ?_, rfl⟩
  exact ⟨{ ctx with packets := packets }, stream, useFile_eq rfl (useFile_ok hctx).2, hstream⟩

/-- Advancing never faults; either the next segment's file is open after it, or none is. -/
theorem advanceToNextSegment_ok (files : Files) (p : Playback) :
    ∃ p' opened, p.advanceToNextSegment files = .ok (p', opened) ∧ p'.state = p.state ∧
      (opened = true ∧ p'.Ready ∨ opened = false ∧ p'.fmtCtx = none) := by
  rcases Nat.lt_or_ge (p.currentSegmentIdx + 1) p.segments.length with hlt | hge
  · obtain ⟨ctx, i, hkept⟩ := openSegmentFile_kept files
      p.segments[p.currentSegmentIdx + 1].filePath p.toNextSegment
    have hstate := congrArg state hkept
    exact ⟨_, _, advanceToNextSegment_next files hlt, hstate, openSegmentFile_ready files _ hlt⟩
  · exact ⟨_, _, advanceToNextSegment_last files hge, rfl, .inr ⟨rfl, rfl⟩⟩

/-- **Reading from an open file.**  There is no fault: a frame is read, and a file is still open,
or the end is reached, and none is. -/
theorem readLoop_ok (files : Files) (p : Playback) (h : p.Ready) :
    ∃ p' frame, p.readLoop files = .ok (p', frame) ∧
      (frame.isSome = true ∧ p'.Ready ∧ p'.state = p.state ∨
        frame.isSome = false ∧ p'.fmtCtx = none ∧ p'.state = .endOfStream) := by
  fun_induction readLoop files p with
  | case1 p fault hfault =>
      obtain ⟨ctx, -, hctx, -⟩ := h
      -- a ready playback has its context
      cases hctx.symm.trans hfault
  | case2 p ctx hctx pkt packets hnext =>
      obtain ⟨_, stream, hsame, hstream⟩ := h
      obtain rfl := Except.ok.inj (hsame.symm.trans hctx)
      obtain ⟨p', hdeliver, hready, hstate⟩ := deliver_ok hctx hstream pkt packets
      exact ⟨p', _, hdeliver, .inl ⟨rfl, hready, hstate⟩⟩
  | case3 p ctx hctx hnext fault hfault =>
      obtain ⟨p', opened, hadvance, -⟩ := advanceToNextSegment_ok files p
      cases hadvance.symm.trans hfault
  | case4 p ctx hctx hnext p' hend =>
      obtain ⟨_, _, hadvance, -, hopened⟩ := advanceToNextSegment_ok files p
      cases hadvance.symm.trans hend
      obtain ⟨hno, -⟩ | ⟨-, hclosed⟩ := hopened
      · cases hno
      · exact ⟨_, none, rfl, .inr ⟨rfl, hclosed, rfl⟩⟩
  | case5 p ctx hctx hnext p' hmore ih =>
      obtain ⟨_, _, hadvance, hstate, hopened⟩ := advanceToNextSegment_ok files p
      cases hadvance.symm.trans hmore
      obtain ⟨-, hready⟩ | ⟨hno, -⟩ := hopened
      · rw [← hstate]
        exact ih hready
      · cases hno

theorem readNextPacket_ok (files : Files) {p : Playback} (h : p.Sound) :
    ∃ p' frame, p.readNextPacket files = .ok (p', frame) ∧ p'.Sound ∧
      (frame.isSome = true → p'.Ready) := by
  rw [readNextPacket]
  by_cases hplay : p.state = .playing
  · rw [if_neg (not_not.mpr hplay)]
    obtain ⟨p', frame, hread, hresult⟩ := readLoop_ok files p (h.ready (h.playing hplay))
    refine ⟨p', frame, hread, ?_⟩
    rcases hresult with ⟨-, hready, hstate⟩ | ⟨hno, hclosed, hend⟩
    · exact ⟨sound_of_ready hready (by simp [hstate, hplay]), fun _ => hready⟩
    · exact ⟨sound_of_closed hclosed (by simp [hend]), fun hyes => by simp [hno] at hyes⟩
  · rw [if_pos hplay]
    exact ⟨p, none, rfl, h, fun hyes => nomatch hyes⟩

/-- The speed has no part in what links state, file and segment. -/
theorem Sound.setSpeed {p : Playback} (h : p.Sound) (speed : PlaybackSpeed) :
    (p.setSpeed speed).Sound := ⟨h.ready, h.playing, h.idle⟩

theorem stepForward_ok (files : Files) {p : Playback} (h : p.Sound) :
    ∃ p' frame, p.stepForward files = .ok (p', frame) ∧ p'.Sound := by
  rw [stepForward]
  split
  · exact ⟨p, none, rfl, h⟩
  · obtain ⟨p', frame, hread, hsound, hready⟩ := readNextPacket_ok files (h.setSpeed .normal)
    rw [setSpeed] at hread
    simp only [hread, bind, Except.bind]
    split
    case isTrue hsome =>
      exact ⟨_, frame, rfl, sound_of_ready (p := { p' with speed := p.speed, state := .paused })
        (hready hsome) (by simp)⟩
    case isFalse => exact ⟨_, none, rfl, hsound.setSpeed p.speed⟩

/-! ### Opening and seeking -/

theorem openRange_ok (channelId startTimeMs endTimeMs : ℤ) (segments : List SegmentInfo)
    (files : Files) {p : Playback} (h : p.Sound) :
    ∃ p' opened, p.openRange channelId startTimeMs endTimeMs segments files = .ok (p', opened) ∧
      p'.Sound := by
  have hclosed : (if p.state ≠ .idle then p.close else p).fmtCtx = none := by
    by_cases hidle : p.state = .idle
    · rw [if_neg (not_not.mpr hidle)]
      exact h.idle hidle
    · rw [if_pos hidle]
      rfl
  rw [openRange]
  generalize (if p.state ≠ .idle then p.close else p) = q at hclosed
  cases segments with
  | nil => exact ⟨_, false, rfl, sound_of_closed hclosed (by simp)⟩
  | cons first rest =>
      rw [if_neg (List.cons_ne_nil _ _)]
      simp only [segmentAt, List.getElem?_cons_zero, bind, Except.bind]
      have hresult := openSegmentFile_ready files first.filePath
        (p := { q with
          channelId := channelId, startTimeMs := startTimeMs, endTimeMs := endTimeMs
          segments := first :: rest, currentSegmentIdx := 0 }) (Nat.succ_pos _)
      generalize openSegmentFile _ _ _ = r at hresult ⊢
      obtain ⟨p', opened⟩ := r
      obtain ⟨rfl, hready⟩ | ⟨rfl, hnone⟩ := hresult
      · exact ⟨_, true, rfl, sound_of_ready (p := { p' with
          state := .playing, currentPositionMs := first.startTime }) hready (by simp)⟩
      · exact ⟨_, false, rfl, sound_of_closed hnone (by simp)⟩

theorem openTarget_same (files : Files) {p : Playback} {target : ℕ}
    (h : target = p.currentSegmentIdx) : p.openTarget files target = .ok (p, true) :=
  if_neg (not_not.mpr h)

theorem openTarget_other (files : Files) {p : Playback} {target : ℕ}
    (h : target ≠ p.currentSegmentIdx) : p.openTarget files target =
      (p.segmentAt target).map fun segment =>
        { p.closeSegmentFile with currentSegmentIdx := target }.openSegmentFile files
          segment.filePath := if_pos h

/-- The target segment is open, or its file could not be opened. -/
theorem openTarget_ok (files : Files) {p : Playback} {target : ℕ}
    (htarget : target < p.segments.length) (h : target = p.currentSegmentIdx → p.Ready) :
    ∃ p' opened, p.openTarget files target = .ok (p', opened) ∧
      (opened = true ∧ p'.Ready ∧ p'.segments = p.segments ∨
        opened = false ∧ p'.fmtCtx = none) := by
  by_cases hsame : target = p.currentSegmentIdx
  · exact ⟨p, true, openTarget_same files hsame, .inl ⟨rfl, h hsame, rfl⟩⟩
  · rw [openTarget_other files hsame, segmentAt_eq htarget]
    obtain ⟨ctx, i, hkept⟩ := openSegmentFile_kept files p.segments[target].filePath
      { p.closeSegmentFile with currentSegmentIdx := target }
    have hsegments := congrArg segments hkept
    refine ⟨_, _, rfl, ?_⟩
    rcases openSegmentFile_ready files p.segments[target].filePath
      (p := { p.closeSegmentFile with currentSegmentIdx := target }) htarget with
      ⟨hopen, hready⟩ | hclosed
    · exact .inl ⟨hopen, hready, hsegments⟩
    · exact .inr hclosed

theorem seekInFile_ok (timestampMs : ℤ) {target : ℕ} (avSeekFrame : ℤ → Bool × List Packet)
    (prevState : PlaybackState) {p : Playback} (htarget : target < p.segments.length)
    (h : p.Ready) :
    ∃ p' sought, p.seekInFile timestampMs target avSeekFrame prevState = .ok (p', sought) ∧
      p'.Ready ∧ (p'.state = .playing ∨ p'.state = prevState) := by
  obtain ⟨ctx, stream, hctx, hstream⟩ := h
  have hready : ∀ packets state position, Ready { p with
      fmtCtx := some { ctx with packets := packets }
      state := state, currentPositionMs := position } :=
    fun packets _ _ =>
      ⟨{ ctx with packets := packets }, stream, useFile_eq rfl (useFile_ok hctx).2, hstream⟩
  simp only [seekInFile, segmentAt_eq htarget, hctx, hstream, bind, Except.bind]
  generalize rescaleQ _ _ _ = seekTs
  split
  · exact ⟨_, true, rfl, hready _ _ _, .inl rfl⟩
  · exact ⟨_, false, rfl, hready _ _ _, .inr rfl⟩

/-- What a `Seek` is to meet: segments, and the file of the current one if it goes there. -/
def CanSeek (timestampMs : ℤ) (p : Playback) : Prop :=
  p.segments ≠ [] ∧
    (targetSegment timestampMs p.segments = p.currentSegmentIdx → p.fmtCtx ≠ none)

theorem seek_ok {timestampMs : ℤ} (files : Files) (avSeekFrame : ℤ → Bool × List Packet)
    {p : Playback} (h : p.Sound) (hseek : p.state ≠ .idle → p.CanSeek timestampMs) :
    ∃ p' sought, p.seek timestampMs files avSeekFrame = .ok (p', sought) ∧ p'.Sound := by
  rw [seek]
  by_cases hidle : p.state = .idle
  · rw [if_pos hidle]
    exact ⟨p, false, rfl, h⟩
  · rw [if_neg hidle]
    obtain ⟨hsegments, hopen⟩ := hseek hidle
    have htarget := targetSegment_lt timestampMs hsegments
    obtain ⟨q, opened, hq, hresult⟩ := openTarget_ok files (p := { p with state := .seeking })
      htarget fun e => h.ready (hopen e)
    simp only [hq, bind, Except.bind]
    obtain ⟨rfl, hready, hkept⟩ | ⟨rfl, hnone⟩ := hresult
    · obtain ⟨p', sought, hp', hready', hstate⟩ := seekInFile_ok timestampMs avSeekFrame p.state
        (by rwa [hkept]) hready
      refine ⟨p', sought, hp', sound_of_ready hready' ?_⟩
      rcases hstate with hstate | hstate
      · simp [hstate]
      · rwa [hstate]
    · exact ⟨_, false, rfl, sound_of_closed hnone (by simp)⟩

/-- Otherwise it indexes `segments_` out of range or uses a null `fmt_ctx_`. -/
theorem seek_fault {timestampMs : ℤ} (files : Files) (avSeekFrame : ℤ → Bool × List Packet)
    {p : Playback} (hidle : p.state ≠ .idle) (hseek : ¬ p.CanSeek timestampMs) :
    ∃ fault, p.seek timestampMs files avSeekFrame = .error fault := by
  rw [seek, if_neg hidle]
  by_cases hsegments : p.segments = []
  · refine ⟨.segmentOutOfRange, ?_⟩
    have hnone : ∀ i, segmentAt { p with state := .seeking } i = .error .segmentOutOfRange :=
      fun i => segmentAt_of_le (by simp [hsegments])
    by_cases hsame : targetSegment timestampMs p.segments = p.currentSegmentIdx
    · simp only [openTarget_same files (p := { p with state := .seeking }) hsame, bind,
        Except.bind, if_true, seekInFile, hnone]
    · simp only [openTarget_other files (p := { p with state := .seeking }) hsame, hnone,
        Except.map, bind, Except.bind]
  · refine ⟨.nullFmtCtx, ?_⟩
    have hclosed : targetSegment timestampMs p.segments = p.currentSegmentIdx ∧
        p.fmtCtx = none := by
      by_contra hno
      exact hseek ⟨hsegments, fun hsame hnone => hno ⟨hsame, hnone⟩⟩
    have hseg : segmentAt { p with state := .seeking } (targetSegment timestampMs p.segments) = _ :=
      segmentAt_eq (targetSegment_lt timestampMs hsegments)
    have huse : useFile { p with state := .seeking } = _ := useFile_closed hclosed.2
    simp only [openTarget_same files (p := { p with state := .seeking }) hclosed.1, bind,
      Except.bind, if_true, seekInFile, hseg, huse]

end Playback

/-! ### Sessions -/

/-- The session has not ended in a fault. -/
def NoFault (session : Session) : Prop := ∃ p, session = .ok p

/-- A `Seek` on an open session finds what it needs. -/
def CallSafe (session : Session) : Call → Prop
  | .seek timestampMs _ _ => ∀ p, session = .ok p → p.state ≠ .idle → p.CanSeek timestampMs
  | _ => True

/-- The objects a session goes through are sound. -/
def SoundSession (session : Session) : Prop := ∀ p, session = .ok p → p.Sound

theorem call_ok {p : Playback} {call : Call} (h : p.Sound) (hsafe : CallSafe (.ok p) call) :
    ∃ p', p.call call = .ok p' ∧ p'.Sound := by
  cases call with
  | openRange channelId startTimeMs endTimeMs segments files =>
      obtain ⟨p', opened, hp', hsound⟩ :=
        p.openRange_ok channelId startTimeMs endTimeMs segments files h
      exact ⟨p', by rw [Playback.call, hp']; rfl, hsound⟩
  | close => exact ⟨p.close, rfl, Playback.sound_of_closed rfl (by simp [Playback.close])⟩
  | readNextPacket files =>
      obtain ⟨p', frame, hp', hsound, -⟩ := p.readNextPacket_ok files h
      exact ⟨p', by rw [Playback.call, hp']; rfl, hsound⟩
  | seek timestampMs files avSeekFrame =>
      obtain ⟨p', sought, hp', hsound⟩ := p.seek_ok files avSeekFrame h (hsafe p rfl)
      exact ⟨p', by rw [Playback.call, hp']; rfl, hsound⟩
  | setSpeed speed => exact ⟨p.setSpeed speed, rfl, h.setSpeed speed⟩
  | stepForward files =>
      obtain ⟨p', frame, hp', hsound⟩ := p.stepForward_ok files h
      exact ⟨p', by rw [Playback.call, hp']; rfl, hsound⟩

theorem call_fault {p : Playback} {call : Call} (hfaults : ¬ CallSafe (.ok p) call) :
    ∃ fault, p.call call = .error fault := by
  cases call with
  | seek timestampMs files avSeekFrame =>
      simp only [CallSafe, Except.ok.injEq, forall_eq', not_forall] at hfaults
      obtain ⟨hidle, hseek⟩ := hfaults
      obtain ⟨fault, hfault⟩ := p.seek_fault files avSeekFrame hidle hseek
      exact ⟨fault, by rw [Playback.call, hfault]; rfl⟩
  | _ => exact absurd trivial hfaults

theorem soundSession_step (session : Session) (call : Call) (h : SoundSession session) :
    SoundSession (step session call) := by
  intro p' hp'
  cases session with
  | error fault => cases hp'
  | ok p =>
      by_cases hsafe : CallSafe (.ok p) call
      · obtain ⟨q, hq, hsound⟩ := call_ok (h p rfl) hsafe
        obtain rfl : q = p' := Except.ok.inj (hq.symm.trans hp')
        exact hsound
      · obtain ⟨fault, hfault⟩ := call_fault hsafe
        cases hfault.symm.trans hp'

/-- A call on a sound object goes without a fault exactly if it is safe. -/
theorem noFault_step (session : Session) (call : Call)
    (h : NoFault session ∧ SoundSession session) :
    NoFault (step session call) ∧ SoundSession (step session call) ↔ CallSafe session call := by
  obtain ⟨⟨p, rfl⟩, hsound⟩ := h
  refine ⟨fun hnext => ?_, fun hsafe => ⟨?_, soundSession_step _ call hsound⟩⟩
  · by_contra hfaults
    obtain ⟨fault, hfault⟩ := call_fault hfaults
    obtain ⟨⟨p', hp'⟩, -⟩ := hnext
    cases hfault.symm.trans hp'
  · obtain ⟨p', hp', -⟩ := call_ok (hsound p rfl) hsafe
    exact ⟨p', hp'⟩

theorem soundSession_new : SoundSession (.ok {}) := by
  intro p hp
  obtain rfl : {} = p := Except.ok.inj hp
  exact Playback.sound_of_closed rfl (by simp)

/-- **Playback without faults.**  A session never uses a closed file or a missing segment exactly
if every `Seek` on it, unless it is idle, meets segments, and an open file if its target is the
current segment. -/
theorem noFault_iff (calls : List Call) :
    Along step NoFault (.ok {}) calls ↔ EveryStep step CallSafe (.ok {}) calls := by
  have hsound : Along step SoundSession (.ok {}) calls :=
    along_of_step soundSession_step calls soundSession_new
  rw [← along_iff_everyStep noFault_step ⟨⟨{}, rfl⟩, soundSession_new⟩]
  exact ⟨fun h => h.and hsound, fun h => h.mono fun _ => And.left⟩

/-- A file with one video stream and no packets. -/
def emptyFile : OpenOutcome := .opened ⟨[⟨true, ⟨1, 90000⟩, 640, 360⟩], []⟩

/-- The first segment's file can be opened, the second's cannot; the session comes to the second
and then seeks into it. -/
def seeksIntoMissing : List Call :=
  let segments : List SegmentInfo := [⟨0, 999, "a.mp4"⟩, ⟨1000, 1999, "b.mp4"⟩]
  let files : Files := fun path => if path = "a.mp4" then emptyFile else .failed
  [.openRange 1 0 1999 segments files, .readNextPacket files,
    .seek 1500 files fun _ => (true, [])]

theorem not_noFault : ¬ Along step NoFault (.ok {}) seeksIntoMissing := by
  intro h
  obtain ⟨p, hp⟩ := h.last
  have hfault : seeksIntoMissing.foldl step (.ok {}) = .error .nullFmtCtx := by decide +kernel
  cases hfault.symm.trans hp

end LoongNvr.Storage
