import LoongNvr.Support.Runs
import LoongNvr.VideoInput.RtspClient
import Mathlib.Data.List.Infix
import Mathlib.Data.List.Count
import Mathlib.Algebra.Order.Group.Unbundled.Int

/-!
# Video input — Reconnect

A session gives up reconnecting only after as many failures in a row as it is configured with, as
long as it has not been reconnected before: the attempts are counted over all outages.

* `failures`: the attempts that failed since the stream was last connected.
* `Patient`: what was asked of a session; `Spared`: the condition on its steps.
* `Kept`: the invariant.
* `patient_of_spared`: the runs.
-/

namespace LoongNvr.VideoInput
open LoongNvr.Core Support

/-- The attempts that failed since the stream was last connected. -/
def failures : List Note → ℕ
  | [] => 0
  | .connect true :: _ => 0
  | .connect false :: notes => failures notes + 1
  | _ :: notes => failures notes

def Note.isConnect : Note → Bool
  | .connect _ => true
  | _ => false

/-- All attempts. -/
abbrev attempts (notes : List Note) : ℕ := notes.countP Note.isConnect

/-- The limit on the attempts is reached since the stream was last connected. -/
def Exhausted (config : RtspClientConfig) (notes : List Note) : Prop :=
  0 < config.maxReconnectAttempts ∧ config.maxReconnectAttempts ≤ failures notes

/-- The delay lies between the first and the longest one. -/
def InRange (config : RtspClientConfig) (delayMs : ℤ) : Prop :=
  min config.reconnectDelayMs config.reconnectMaxDelayMs ≤ delayMs ∧
    delayMs ≤ max config.reconnectDelayMs config.reconnectMaxDelayMs

/-- The limit is only said to be exceeded where it is reached. -/
def GivesUpLate (config : RtspClientConfig) (notes : List Note) : Prop :=
  ∀ before, .exceeded :: before <:+ notes → Exhausted config before

/-- The delays of a session lie in their range. -/
def Waits (config : RtspClientConfig) (notes : List Note) : Prop :=
  ∀ delayMs, .waiting delayMs ∈ notes → InRange config delayMs

namespace RtspSession

/-- **The session is patient**: it gives up, or ends in an error for a stream it cannot read, only
after the last attempts, as many as its limit, all failed. -/
structure Patient (s : RtspSession) : Prop where
  givesUp : GivesUpLate s.config s.notes
  error : s.state = .error → s.running = true → s.config.autoReconnect = true →
    .stateChanged .error "AVPacket allocation failed" ∉ s.notes →
    .stateChanged .error "File seek failed" ∉ s.notes → Exhausted s.config s.notes
  waits : Waits s.config s.notes

/-- A step on which the count over all outages, or the doubling of the delay, does no harm. -/
def Spared (s : RtspSession) : PullStep → Prop
  | .retry => ∀ delayMs, s.pull = .retrying delayMs → s.running = true → s.exceeds = true →
      .connect true ∉ s.notes
  | .connect none => ∀ delayMs, s.pull = .connecting delayMs →
      min s.config.reconnectDelayMs s.config.reconnectMaxDelayMs ≤ toInt32 (delayMs * 2)
  | _ => True

end RtspSession

/-! ### Notes -/

variable {config : RtspClientConfig} {notes : List Note} {note : Note}

theorem GivesUpLate.cons (h : GivesUpLate config notes) (hnote : note ≠ .exceeded) :
    GivesUpLate config (note :: notes) := by
  intro before hsuffix
  rcases List.suffix_cons_iff.mp hsuffix with heq | hsuffix
  · exact absurd (List.cons.inj heq).1.symm hnote
  · exact h before hsuffix

theorem GivesUpLate.exceeded (h : GivesUpLate config notes) (hlast : Exhausted config notes) :
    GivesUpLate config (.exceeded :: notes) := by
  intro before hsuffix
  rcases List.suffix_cons_iff.mp hsuffix with heq | hsuffix
  · rw [(List.cons.inj heq).2]
    exact hlast
  · exact h before hsuffix

theorem Waits.cons (h : Waits config notes) (hnote : ∀ d, note = .waiting d → InRange config d) :
    Waits config (note :: notes) := by
  intro delayMs hmem
  rcases List.mem_cons.mp hmem with heq | hmem
  · exact hnote delayMs heq.symm
  · exact h delayMs hmem

theorem attempts_connect (ok : Bool) : attempts (.connect ok :: notes) = attempts notes + 1 :=
  List.countP_cons_of_pos rfl

theorem attempts_waiting (delayMs : ℤ) : attempts (.waiting delayMs :: notes) = attempts notes :=
  List.countP_cons_of_neg Bool.false_ne_true

/-- Before the first success, all attempts have failed. -/
theorem failures_eq_attempts (h : .connect true ∉ notes) : failures notes = attempts notes := by
  induction notes with
  | nil => rfl
  | cons note notes ih =>
      obtain ⟨hne, hrest⟩ := not_or.mp (List.mem_cons.not.mp h)
      cases note with
      | connect ok =>
          cases ok with
          | true => exact absurd rfl hne
          | false =>
              rw [failures, ih hrest, attempts_connect]
      | _ => exact (ih hrest).trans (List.countP_cons_of_neg Bool.false_ne_true).symm

/-! ### The invariant -/

/-- The attempts under way. -/
def Pull.underWay : Pull → ℕ
  | .waiting _ | .connecting _ => 1
  | _ => 0

@[simp] theorem underWay_test : Pull.test.underWay = 0 := rfl

@[simp] theorem underWay_reading : Pull.reading.underWay = 0 := rfl

@[simp] theorem underWay_retrying (delayMs : ℤ) : (Pull.retrying delayMs).underWay = 0 := rfl

@[simp] theorem underWay_waiting (delayMs : ℤ) : (Pull.waiting delayMs).underWay = 1 := rfl

@[simp] theorem underWay_connecting (delayMs : ℤ) : (Pull.connecting delayMs).underWay = 1 := rfl

/-- The delay the thread holds. -/
def Pull.delay : Pull → Option ℤ
  | .retrying delayMs | .waiting delayMs | .connecting delayMs => some delayMs
  | _ => none

namespace RtspSession

/-- **The invariant**: the session is patient, its attempts are counted, and its delay lies in
range. -/
structure Kept (s : RtspSession) : Prop where
  patient : s.Patient
  counted : s.pull ≠ .ended →
    s.reconnectAttempts = toInt32 (attempts s.notes + s.pull.underWay : ℕ)
  ended : s.state = .error → s.pull = .ended
  delay : ∀ delayMs ∈ s.pull.delay, InRange s.config delayMs

variable {s : RtspSession} {message : String}

theorem notes_setState (message : String) (newState : RtspConnectionState) :
    (s.setState newState message).notes = s.notes ∨
      (s.setState newState message).notes = .stateChanged newState message :: s.notes := by
  unfold setState
  split
  · exact .inl rfl
  · exact .inr rfl

theorem setState_eq (newState : RtspConnectionState) :
    s.setState newState message =
      { s with state := newState, notes := (s.setState newState message).notes } := by
  unfold setState
  split
  · next h =>
      subst h
      rfl
  · rfl

/-- The thread does not end in an error unless it has a reason to. -/
theorem kept_fail (hgives : GivesUpLate s.config s.notes) (hwaits : Waits s.config s.notes)
    (hlive : s.state ≠ .error)
    (hcause : s.running = true → s.config.autoReconnect = true →
      message = "AVPacket allocation failed" ∨ message = "File seek failed" ∨
        Exhausted s.config s.notes) : (s.fail message).Kept := by
  have hset : s.setState .error message =
      { s with state := .error, notes := .stateChanged .error message :: s.notes } := if_neg hlive
  rw [fail, hset]
  constructor
  · constructor
    · exact hgives.cons (by simp)
    · intro _ hrunning hauto halloc hseek
      rcases hcause hrunning hauto with rfl | rfl | hlast
      · exact absurd List.mem_cons_self halloc
      · exact absurd List.mem_cons_self hseek
      · exact hlast
    · exact hwaits.cons (by simp)
  · exact fun h => absurd rfl h
  · exact fun _ => rfl
  · exact fun delayMs h => nomatch h

theorem Kept.live (h : s.Kept) (hpull : s.pull ≠ .ended) : s.state ≠ .error :=
  fun herror => hpull (h.ended herror)

/-- The thread goes on. -/
theorem Kept.goOn (h : s.Kept) (hpull : s.pull ≠ .ended) {pull : Pull}
    (hunder : pull.underWay = s.pull.underWay)
    (hdelay : ∀ delayMs ∈ pull.delay, InRange s.config delayMs) :
    { s with pull := pull }.Kept where
  patient := ⟨h.patient.givesUp, h.patient.error, h.patient.waits⟩
  counted _ := hunder ▸ h.counted hpull
  ended herror := absurd herror (h.live hpull)
  delay := hdelay

/-- What is noted of a state that is no error. -/
theorem kept_setState (message : String) (hgives : GivesUpLate s.config s.notes)
    (hwaits : Waits s.config s.notes) {newState : RtspConnectionState} (_hnew : newState ≠ .error) :
    GivesUpLate s.config (s.setState newState message).notes ∧
      Waits s.config (s.setState newState message).notes ∧
        attempts (s.setState newState message).notes = attempts s.notes := by
  rcases s.notes_setState message newState with h | h
  · rw [h]
    exact ⟨hgives, hwaits, rfl⟩
  · rw [h]
    exact ⟨hgives.cons (by simp), hwaits.cons (by simp),
      List.countP_cons_of_neg Bool.false_ne_true⟩

/-- The first delay is in range. -/
theorem inRange_first (config : RtspClientConfig) : InRange config config.reconnectDelayMs :=
  ⟨min_le_left _ _, le_max_left _ _⟩

theorem Kept.lost (h : s.Kept) (hpull : s.pull = .reading) : s.lost.Kept := by
  have hlive : s.pull ≠ .ended := by simp [hpull]
  unfold RtspSession.lost
  split
  · obtain ⟨hgives, hwaits, hattempts⟩ := kept_setState "" h.patient.givesUp
      h.patient.waits (show RtspConnectionState.reconnecting ≠ .error by simp)
    rw [setState_eq]
    constructor
    · exact ⟨hgives, fun herror => by simp at herror, hwaits⟩
    · intro _
      have hcounted := h.counted hlive
      rw [hpull] at hcounted
      simpa [hattempts] using hcounted
    · intro herror
      simp at herror
    · rintro delayMs ⟨⟩
      exact inRange_first s.config
  · next hoff =>
      refine kept_fail h.patient.givesUp h.patient.waits (h.live hlive) fun hrunning hauto => ?_
      exact absurd ⟨hrunning, hauto⟩ hoff

/-- The limit is reached when it is exceeded and no attempt has succeeded. -/
theorem Kept.exhausted (h : s.Kept) {delayMs : ℤ} (hpull : s.pull = .retrying delayMs)
    (hexceeds : s.exceeds = true) (hnone : .connect true ∉ s.notes) :
    Exhausted s.config s.notes := by
  obtain ⟨hpos, hover⟩ := of_decide_eq_true hexceeds
  have hcounted := h.counted (by simp [hpull])
  rw [hpull, underWay_retrying, Nat.add_zero] at hcounted
  have hnext : toInt32 (s.reconnectAttempts + 1) ≤ (attempts s.notes + 1 : ℕ) := by
    rw [hcounted, toInt32_succ]
    exact toInt32_le (Int.natCast_nonneg _)
  refine ⟨hpos, ?_⟩
  rw [failures_eq_attempts hnone]
  have hlt := hover.trans_le hnext
  omega

theorem Kept.retry (h : s.Kept) {delayMs : ℤ} (hpull : s.pull = .retrying delayMs)
    (hspared : s.Spared .retry) : (s.retry delayMs).Kept := by
  have hlive : s.pull ≠ .ended := by simp [hpull]
  unfold RtspSession.retry
  split
  · next hrunning =>
      dsimp only
      split
      · next hexceeds =>
          have hlast := h.exhausted hpull hexceeds (hspared delayMs hpull hrunning hexceeds)
          refine kept_fail ?_ ?_ (h.live hlive) fun _ _ => .inr (.inr hlast)
          · exact h.patient.givesUp.exceeded hlast
          · exact h.patient.waits.cons (by simp)
      · have hrange : InRange s.config delayMs := h.delay delayMs (by simp [hpull, Pull.delay])
        constructor
        · refine ⟨h.patient.givesUp.cons (by simp), fun herror => ?_, h.patient.waits.cons ?_⟩
          · exact absurd herror (h.live hlive)
          · rintro d ⟨⟩
            exact hrange
        · intro _
          have hcounted := h.counted hlive
          rw [hpull, underWay_retrying, Nat.add_zero] at hcounted
          simp only [hcounted, toInt32_succ, attempts_waiting, underWay_waiting]
        · exact fun herror => absurd herror (h.live hlive)
        · rintro d ⟨⟩
          exact hrange
  · next hstopped =>
      refine kept_fail h.patient.givesUp h.patient.waits (h.live hlive) fun hrunning _ => ?_
      exact absurd hrunning hstopped

theorem Kept.connected (h : s.Kept) {delayMs : ℤ} (hpull : s.pull = .connecting delayMs)
    (isFileSource : Bool) : (s.connected isFileSource).Kept := by
  have hcounted := h.counted (by simp [hpull])
  rw [hpull] at hcounted
  unfold RtspSession.connected
  dsimp only
  have hset := kept_setState
    (s := { s with isFileSource := isFileSource, notes := .connect true :: s.notes })
    "Reconnected" (h.patient.givesUp.cons (by simp)) (h.patient.waits.cons (by simp))
    (show RtspConnectionState.connected ≠ .error by simp)
  obtain ⟨hgives, hwaits, hattempts⟩ := hset
  rw [setState_eq]
  constructor
  · exact ⟨hgives, fun herror => by simp at herror, hwaits⟩
  · intro _
    simp only [hattempts, attempts_connect, underWay_test, Nat.add_zero]
    rwa [underWay_connecting] at hcounted
  · intro herror
    simp at herror
  · exact fun d hd => nomatch hd

theorem Kept.refused (h : s.Kept) {delayMs : ℤ} (hpull : s.pull = .connecting delayMs)
    (hspared : s.Spared (.connect none)) : (s.refused delayMs).Kept := by
  have hlive : s.pull ≠ .ended := by simp [hpull]
  have hcounted := h.counted hlive
  rw [hpull] at hcounted
  constructor
  · refine ⟨h.patient.givesUp.cons (by simp), fun herror => ?_, h.patient.waits.cons (by simp)⟩
    exact absurd herror (h.live hlive)
  · intro _
    simp only [RtspSession.refused, attempts_connect, underWay_retrying, Nat.add_zero]
    rwa [underWay_connecting] at hcounted
  · exact fun herror => absurd herror (h.live hlive)
  · rintro d ⟨⟩
    refine ⟨le_min (hspared delayMs hpull) (min_le_right _ _), ?_⟩
    exact (min_le_right _ _).trans (le_max_right _ _)

theorem Kept.stop (h : s.Kept) : { s with pull := .ended }.Kept where
  patient := ⟨h.patient.givesUp, h.patient.error, h.patient.waits⟩
  counted hlive := absurd rfl hlive
  ended _ := rfl
  delay := fun _ hd => nomatch hd

theorem Kept.close (h : s.Kept) : { s with running := false }.Kept where
  patient := ⟨h.patient.givesUp, fun _ hrunning => absurd hrunning Bool.false_ne_true,
    h.patient.waits⟩
  counted := h.counted
  ended := h.ended
  delay := h.delay

theorem Kept.join (h : s.Kept) (hpull : s.pull = .ended) : (s.setState .disconnected).Kept := by
  obtain ⟨hgives, hwaits, -⟩ := kept_setState "" h.patient.givesUp h.patient.waits
    (show RtspConnectionState.disconnected ≠ .error by simp)
  rw [setState_eq]
  constructor
  · exact ⟨hgives, fun herror => by simp at herror, hwaits⟩
  · exact fun hlive => absurd hpull hlive
  · intro herror
    simp at herror
  · exact h.delay

/-- The doubling of an ordinary delay does no harm. -/
theorem Kept.spared_refused (h : s.Kept) {delayMs : ℤ} (hpull : s.pull = .connecting delayMs)
    (hnonneg : 0 ≤ delayMs) (hsmall : delayMs < 1073741824) : s.Spared (.connect none) := by
  intro d hd
  rw [hpull] at hd
  cases hd
  have hrange : InRange s.config delayMs := h.delay delayMs (by rw [hpull]; rfl)
  have hdouble : toInt32 (delayMs * 2) = delayMs * 2 := toInt32_of_fits (by omega) (by omega)
  rw [hdouble]
  exact hrange.1.trans (by omega)

/-- **One step** that is spared keeps the invariant. -/
theorem Kept.step (h : s.Kept) {a : PullStep} (hspared : s.Spared a) : (s.step a).Kept := by
  have hgives := h.patient.givesUp
  have hwaits := h.patient.waits
  unfold RtspSession.step
  split
  · next hpull => exact h.goOn (by simp [hpull]) (by rw [hpull]; rfl) (fun d hd => nomatch hd)
  · next hpull => exact kept_fail hgives hwaits (h.live (by simp [hpull])) fun _ _ => .inl rfl
  · next hpull =>
      split
      · exact h.goOn (by simp [hpull]) (by rw [hpull]; rfl) (fun d hd => nomatch hd)
      · exact h.stop
  · next hpull => exact h.goOn (by simp [hpull]) (by rw [hpull]; rfl) (fun d hd => nomatch hd)
  · next hpull =>
      split
      · split
        · exact h.goOn (by simp [hpull]) (by rw [hpull]; rfl) (fun d hd => nomatch hd)
        · exact kept_fail hgives hwaits (h.live (by simp [hpull])) fun _ _ => .inr (.inl rfl)
      · exact h.lost hpull
  · next hpull => exact h.lost hpull
  · next delayMs hpull => exact h.retry hpull hspared
  · next delayMs hpull =>
      split
      · refine h.goOn (by simp [hpull]) (by rw [hpull]; rfl) fun _ hd => ?_
        cases hd
        exact h.delay delayMs (by rw [hpull]; rfl)
      · next hstopped =>
          refine kept_fail hgives hwaits (h.live (by simp [hpull])) fun hrunning _ => ?_
          exact absurd hrunning hstopped
  · next delayMs isFileSource hpull => exact h.connected hpull isFileSource
  · next delayMs hpull => exact h.refused hpull hspared
  · exact h.close
  · next hpull =>
      split
      · exact h
      · exact h.join hpull
  · exact h

/-- A session that has just been opened. -/
def opened (config : RtspClientConfig) (isFileSource : Bool) : RtspSession where
  config := config
  isFileSource := isFileSource

theorem kept_opened (config : RtspClientConfig) (isFileSource : Bool) :
    (opened config isFileSource).Kept where
  patient :=
    { givesUp := fun _ h => absurd h (by simp [opened])
      error := fun h => nomatch h
      waits := fun _ h => nomatch h }
  counted _ := by simp [opened, Pull.underWay, toInt32]
  ended h := nomatch h
  delay _ h := nomatch h

/-- **A session whose steps are all spared** is patient at every moment. -/
theorem patient_of_spared {config : RtspClientConfig} {isFileSource : Bool} {as : List PullStep}
    (hspared : EveryStep step Spared (opened config isFileSource) as) :
    Along step Patient (opened config isFileSource) as :=
  (along_of_everyStep (fun _ _ hs ha => hs.step ha) (kept_opened config isFileSource)
    hspared).mono fun _ hs => hs.patient

/-- The theorem, of an outage that is repaired at the second attempt of two. -/
theorem patient_of_spared_second :
    Along step Patient (opened { maxReconnectAttempts := 2 } false)
      [.alloc true, .test, .read .failed, .retry, .wake, .connect none, .retry, .wake,
        .connect (some false), .test] := by
  have hfew : ∀ s : RtspSession, s.exceeds = false → s.Spared .retry :=
    fun s hs _ _ _ hexceeds => absurd hexceeds (by rw [hs]; exact Bool.false_ne_true)
  refine patient_of_spared ⟨trivial, trivial, trivial, hfew _ rfl, trivial, ?_, hfew _ rfl, trivial,
    trivial, trivial, trivial⟩
  intro delayMs hpull
  cases hpull
  decide

/-- The second outage of a session with a limit of one: the attempt that repaired the first one
counts, and no other is made. -/
theorem patient_refuted :
    ¬ ([.alloc true, .test, .read .failed, .retry, .wake, .connect (some false), .test,
        .read .failed, .retry].foldl step
      (opened { maxReconnectAttempts := 1 } false)).Patient := by
  intro h
  have hlast := h.error rfl rfl rfl (by decide) (by decide)
  exact absurd hlast.2 (by decide)

end RtspSession

end LoongNvr.VideoInput
