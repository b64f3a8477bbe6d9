import LoongNvr.Channel.SharedFrames
import LoongNvr.Support.Runs
import Mathlib.Data.List.Forall2

/-!
# Channel — InferredPicture

The inference worker sees a frame as the decoder delivered it exactly as long as it comes before the
overlay stage, which draws into the same pixels.

* `InfersDecoded`: what was asked of a run; `Undrawn`: the condition on a call of `Infer`.
* `Traced`: where the pixels of a frame come from.
* `Differing`: two runs that differ in what is drawn.
* `infersDecoded_iff`: the runs.
-/

namespace LoongNvr.Channel
open LoongNvr.Core LoongNvr.AiEngine LoongNvr.Rules Support IouTracker

namespace SharedFrames

variable {κ : Type} {osd : OsdDrawing κ} {srt : PairSorter} {s : SharedFrames κ}

/-- The pixels of a frame as they are. -/
def picture (s : SharedFrames κ) (n : ℕ) : Option Image := (s.frames[n]?).bind (·.data)

/-- The pixels of a frame as the decoder delivered them. -/
def delivered (s : SharedFrames κ) (n : ℕ) : Option Image := (s.decoded[n]?).join

/-- `Infer` was called on the pixels that the decoder delivered. -/
def InfersDecoded (s : SharedFrames κ) : Prop :=
  ∀ p ∈ s.inferred, s.delivered p.1 = some p.2

/-- `Infer` is called on a frame that `OverlayStage` has not drawn into yet, or has left as it
was. -/
def Undrawn (s : SharedFrames κ) : FrameStep → Prop
  | .infer => ∀ n, s.worker = .taken n → ∀ drawn, s.rendered.lookup n = some drawn →
      s.delivered n = some drawn
  | _ => True

/-! ### Where the pixels come from -/

/-- The pixels of a frame are those drawn last, or those delivered. -/
structure Traced (s : SharedFrames κ) : Prop where
  length_eq : s.frames.length = s.decoded.length
  rendered_lt : ∀ p ∈ s.rendered, p.1 < s.frames.length
  picture_eq : ∀ n, s.picture n = (s.rendered.lookup n).or (s.delivered n)

theorem Traced.congr (h : s.Traced) {t : SharedFrames κ} (hframes : t.frames = s.frames)
    (hdecoded : t.decoded = s.decoded) (hrendered : t.rendered = s.rendered) : t.Traced where
  length_eq := by rw [hframes, hdecoded, h.length_eq]
  rendered_lt := by
    rw [hframes, hrendered]
    exact h.rendered_lt
  picture_eq n := by
    rw [picture, hframes, hrendered, delivered, hdecoded]
    exact h.picture_eq n

theorem lookup_eq_none {l : List (ℕ × Image)} {n : ℕ} (h : ∀ p ∈ l, p.1 < n) :
    l.lookup n = none := by
  rw [List.lookup_eq_none_iff]
  intro p hp
  have hlt := h p hp
  simp only [bne_iff_ne]
  exact hlt.ne'

/-- A frame is delivered. -/
theorem traced_append (h : s.Traced) {t : SharedFrames κ} {frame : Frame}
    (hframes : t.frames = s.frames ++ [frame]) (hdecoded : t.decoded = s.decoded ++ [frame.data])
    (hrendered : t.rendered = s.rendered) : t.Traced where
  length_eq := by simp [hframes, hdecoded, h.length_eq]
  rendered_lt p hp := by
    rw [hrendered] at hp
    rw [hframes, List.length_append]
    exact Nat.lt_add_right _ (h.rendered_lt p hp)
  picture_eq n := by
    rw [picture, delivered, hframes, hdecoded, hrendered]
    rcases Nat.lt_trichotomy n s.frames.length with hlt | rfl | hgt
    · rw [List.getElem?_append_left hlt, List.getElem?_append_left (h.length_eq ▸ hlt)]
      exact h.picture_eq n
    · rw [lookup_eq_none h.rendered_lt, List.getElem?_concat_length, h.length_eq,
        List.getElem?_concat_length]
      rfl
    · have hnone : s.rendered.lookup n = none :=
        lookup_eq_none fun p hp => (h.rendered_lt p hp).trans hgt
      rw [hnone, List.getElem?_eq_none (by simpa [Nat.succ_le_iff] using hgt),
        List.getElem?_eq_none (by simpa [← h.length_eq, Nat.succ_le_iff] using hgt)]
      rfl

/-- A frame is changed; if its pixels are, they have been drawn. -/
theorem traced_set (h : s.Traced) {t : SharedFrames κ} {n : ℕ} {frame frame' : Frame}
    (hframe : s.frames[n]? = some frame) (hframes : t.frames = s.frames.set n frame')
    (hdecoded : t.decoded = s.decoded)
    (hrendered : (t.rendered = s.rendered ∧ frame'.data = frame.data) ∨
      ∃ drawn, t.rendered = (n, drawn) :: s.rendered ∧ frame'.data = some drawn) : t.Traced := by
  have hn : n < s.frames.length := (List.getElem?_eq_some_iff.mp hframe).1
  constructor
  · rw [hframes, List.length_set, hdecoded, h.length_eq]
  · intro p hp
    rw [hframes, List.length_set]
    rcases hrendered with ⟨heq, -⟩ | ⟨drawn, heq, -⟩
    · exact h.rendered_lt p (heq ▸ hp)
    · rcases List.mem_cons.mp (heq ▸ hp) with rfl | hp
      · exact hn
      · exact h.rendered_lt p hp
  · intro m
    have hold := h.picture_eq m
    rw [picture, delivered, hframes, hdecoded]
    by_cases hm : n = m
    · subst hm
      rw [List.getElem?_set_self hn]
      rcases hrendered with ⟨heq, hdata⟩ | ⟨drawn, heq, hdata⟩
      · rw [picture, hframe] at hold
        rw [heq]
        exact hdata.trans hold
      · rw [heq, List.lookup_cons_self]
        exact hdata
    · rw [List.getElem?_set_ne hm]
      rcases hrendered with ⟨heq, -⟩ | ⟨drawn, heq, -⟩
      · rw [heq]
        exact hold
      · rw [heq, List.lookup_cons, beq_false_of_ne (Ne.symm hm)]
        exact hold

theorem data_withLastResult (a : Pipeline.AiStage) (frame : Frame) :
    (a.withLastResult frame).data = frame.data := by
  obtain ⟨analysis, h⟩ := a.withLastResult_frame frame
  rw [h]

/-- A step that neither looks at a frame nor brings one. -/
def Apart : FrameStep → Prop
  | .deliver _ | .infer | .rule .. | .overlay _ => False
  | _ => True

variable (osd srt) in
/-- Such a step leaves the frames, and what is drawn into them and inferred on. -/
theorem step_apart {a : FrameStep} (ha : Apart a) :
    (s.step osd srt a).frames = s.frames ∧ (s.step osd srt a).decoded = s.decoded ∧
      (s.step osd srt a).rendered = s.rendered ∧ (s.step osd srt a).inferred = s.inferred := by
  cases a with
  | count =>
      simp only [SharedFrames.step, count]
      split
      · split <;> exact ⟨rfl, rfl, rfl, rfl⟩
      · exact ⟨rfl, rfl, rfl, rfl⟩
  | submit | pass | take | store | rest =>
      simp only [SharedFrames.step, submit, pass, take, store, rest]
      split <;> exact ⟨rfl, rfl, rfl, rfl⟩
  | dropRule i | dropOverlay i => exact ⟨rfl, rfl, rfl, rfl⟩
  | deliver _ | infer | rule _ _ | overlay _ => exact absurd ha not_false

/-- **Every step** keeps track of the pixels. -/
theorem Traced.step (h : s.Traced) (a : FrameStep) : (s.step osd srt a).Traced := by
  by_cases ha : Apart a
  · obtain ⟨hframes, hdecoded, hrendered, -⟩ := step_apart osd srt (s := s) ha
    exact h.congr hframes hdecoded hrendered
  · cases a with
    | deliver frame =>
        simp only [SharedFrames.step, deliver]
        split
        · split
          · exact traced_append h rfl (by rw [data_withLastResult]) rfl
          · exact traced_append h rfl rfl rfl
        · exact h
    | infer =>
        simp only [SharedFrames.step, infer]
        split
        · split
          · exact h
          · exact h.congr rfl rfl rfl
        · exact h
    | rule engine now =>
        simp only [SharedFrames.step, rule]
        split
        · exact h
        · split
          · exact h
          · next hframe => exact traced_set h hframe rfl rfl (.inl ⟨rfl, rfl⟩)
    | overlay now =>
        simp only [SharedFrames.step, overlay]
        split
        · exact h
        · split
          · exact h
          · next hframe =>
              split
              · exact traced_set h hframe rfl rfl (.inr ⟨_, rfl, rfl⟩)
              · exact h.congr rfl rfl rfl
    | _ => exact absurd trivial ha

/-- What a step other than `infer` does with the pictures delivered and inferred on. -/
theorem inferred_step {a : FrameStep} (ha : a ≠ .infer) :
    (s.step osd srt a).inferred = s.inferred ∧
      ∃ more, (s.step osd srt a).decoded = s.decoded ++ more := by
  by_cases hapart : Apart a
  · obtain ⟨-, hdecoded, -, hinferred⟩ := step_apart osd srt (s := s) hapart
    exact ⟨hinferred, [], hdecoded.trans (List.append_nil _).symm⟩
  · cases a with
    | deliver frame =>
        simp only [SharedFrames.step, deliver]
        split
        · split <;> exact ⟨rfl, _, rfl⟩
        · exact ⟨rfl, [], (List.append_nil _).symm⟩
    | infer => exact absurd rfl ha
    | overlay now =>
        simp only [SharedFrames.step, overlay]
        split
        · exact ⟨rfl, [], (List.append_nil _).symm⟩
        · split
          · exact ⟨rfl, [], (List.append_nil _).symm⟩
          · split <;> exact ⟨rfl, [], (List.append_nil _).symm⟩
    | rule engine now =>
        simp only [SharedFrames.step, rule]
        split
        · exact ⟨rfl, [], (List.append_nil _).symm⟩
        · split <;> exact ⟨rfl, [], (List.append_nil _).symm⟩
    | _ => exact absurd trivial hapart

/-- A call of `Infer`, by the pixels of the frame taken. -/
theorem infer_cases (s : SharedFrames κ) :
    (s.infer = s ∧ ∀ n, s.worker = .taken n → s.picture n = none) ∨
      ∃ n image, s.worker = .taken n ∧ s.picture n = some image ∧
        s.infer = { s with
          inferred := s.inferred ++ [(n, image)]
          worker := .found (s.engine.infer image s.stage.confidenceThreshold) } := by
  unfold infer
  split
  · next n hworker =>
      split
      · next hnone =>
          refine .inl ⟨rfl, fun m hm => ?_⟩
          cases hworker.symm.trans hm
          exact hnone
      · next image himage => exact .inr ⟨n, image, hworker, himage, rfl⟩
  · next hnot => exact .inl ⟨rfl, fun n hn => absurd hn (hnot n)⟩

/-- A frame that has been drawn into has the pixels that were drawn. -/
theorem Traced.drawn (h : s.Traced) {n : ℕ} {drawn : Image}
    (hdrawn : s.rendered.lookup n = some drawn) : s.picture n = some drawn := by
  rw [h.picture_eq, hdrawn, Option.some_or]

theorem delivered_append {t : SharedFrames κ} {more : List (Option Image)}
    (hdecoded : t.decoded = s.decoded ++ more) {n : ℕ} {image : Image}
    (h : s.delivered n = some image) : t.delivered n = some image := by
  rw [delivered, Option.join_eq_some_iff] at h ⊢
  rw [hdecoded, List.getElem?_append_left (List.getElem?_eq_some_iff.mp h).1, h]

/-- The pixels of a frame taken that has not been drawn into. -/
theorem Traced.undrawn (h : s.Traced) (hundrawn : s.Undrawn .infer) {n : ℕ}
    (hworker : s.worker = .taken n) {image : Image} (himage : s.picture n = some image) :
    s.delivered n = some image := by
  cases hdrawn : s.rendered.lookup n with
  | none => rw [← himage, h.picture_eq, hdrawn, Option.none_or]
  | some drawn => rw [hundrawn n hworker drawn hdrawn, ← himage, h.drawn hdrawn]

/-- **One step** ends with all pictures as delivered exactly if it is no call of `Infer` on one that
has been drawn into. -/
theorem infersDecoded_step (h : s.Traced) (hs : s.InfersDecoded) (a : FrameStep) :
    (s.step osd srt a).InfersDecoded ↔ s.Undrawn a := by
  by_cases ha : a = .infer
  · subst ha
    rcases infer_cases s with ⟨hsame, hnone⟩ | ⟨n, image, hworker, himage, hinfer⟩
    · refine iff_of_true ?_ fun n hworker drawn hdrawn => ?_
      · rw [SharedFrames.step, hsame]
        exact hs
      · have hpicture := h.drawn hdrawn
        rw [hnone n hworker] at hpicture
        cases hpicture
    · rw [SharedFrames.step, hinfer]
      constructor
      · intro hall m hm drawn hdrawn
        cases hworker.symm.trans hm
        have hnew : s.delivered n = some image :=
          hall (n, image) (List.mem_append_right _ (List.mem_singleton_self _))
        rw [hnew, ← himage, h.drawn hdrawn]
      · intro hundrawn p hp
        rcases List.mem_append.mp hp with hp | hp
        · exact hs p hp
        · cases List.mem_singleton.mp hp
          exact h.undrawn hundrawn hworker himage
  · obtain ⟨hinferred, more, hdecoded⟩ : (s.step osd srt a).inferred = s.inferred ∧
        ∃ more, (s.step osd srt a).decoded = s.decoded ++ more := inferred_step ha
    refine iff_of_true (fun p hp => ?_) ?_
    · rw [hinferred] at hp
      exact delivered_append hdecoded (hs p hp)
    · cases a with
      | infer => exact absurd rfl ha
      | _ => trivial

/-! ### Two runs -/

/-- The frame of two runs, but for its pixels. -/
def Alike (frame frame' : Frame) : Prop :=
  ∃ data, frame' = { frame with data := data } ∧ data.isSome = frame.data.isSome

/-- The stages with another renderer and other drawings. -/
def redrawn (s : SharedFrames κ) (renderer : OsdRenderer κ) (frames : List Frame)
    (rendered : List (ℕ × Image)) : SharedFrames κ :=
  { s with renderer := renderer, frames := frames, rendered := rendered }

/-- Two runs that differ in what is drawn. -/
def Differing (s t : SharedFrames κ) : Prop :=
  ∃ renderer frames rendered, t = s.redrawn renderer frames rendered ∧
    List.Forall₂ Alike s.frames frames

theorem step_redrawn {a : FrameStep} (ha : Apart a) (renderer : OsdRenderer κ)
    (frames : List Frame) (rendered : List (ℕ × Image)) :
    (s.redrawn renderer frames rendered).step osd srt a =
        (s.step osd srt a).redrawn renderer frames rendered ∧
      (s.step osd srt a).frames = s.frames := by
  cases a with
  | count =>
      simp only [SharedFrames.step, count, redrawn]
      split
      · by_cases hsubmits : s.stage.submits = true
        · simp [hsubmits]
        · simp [hsubmits]
      · exact ⟨rfl, rfl⟩
  | submit | pass | take | rest =>
      simp only [SharedFrames.step, submit, pass, take, rest, redrawn]
      split <;> exact ⟨rfl, rfl⟩
  | store =>
      simp only [SharedFrames.step, store, redrawn]
      split <;> exact ⟨rfl, rfl⟩
  | dropRule i | dropOverlay i => exact ⟨rfl, rfl⟩
  | deliver _ | infer | rule _ _ | overlay _ => exact absurd ha not_false

theorem Alike.refl (frame : Frame) : Alike frame frame := ⟨frame.data, rfl, rfl⟩

/-- What `RuleStage` does to a frame does not depend on its pixels. -/
theorem Alike.rule {frame frame' : Frame} (h : Alike frame frame') (engine : RuleEngine)
    (now : ℤ) : Alike (RuleStage.processFrame srt engine frame now).2
      (RuleStage.processFrame srt engine frame' now).2 := by
  obtain ⟨data, rfl, hsome⟩ := h
  exact ⟨data, rfl, hsome⟩

theorem forall₂_set {l l' : List Frame} (h : List.Forall₂ Alike l l') {frame frame' : Frame}
    (hnew : Alike frame frame') (n : ℕ) : List.Forall₂ Alike (l.set n frame) (l'.set n frame') := by
  induction h generalizing n with
  | nil => exact .nil
  | cons hhead htail ih =>
      cases n with
      | zero => exact .cons hnew htail
      | succ n => exact .cons hhead (ih n)

theorem forall₂_getElem? {l l' : List Frame} (h : List.Forall₂ Alike l l') (n : ℕ) :
    (l[n]? = none ∧ l'[n]? = none) ∨
      ∃ frame frame', l[n]? = some frame ∧ l'[n]? = some frame' ∧ Alike frame frame' := by
  induction h generalizing n with
  | nil => exact .inl ⟨rfl, rfl⟩
  | cons hhead htail ih =>
      cases n with
      | zero => exact .inr ⟨_, _, rfl, rfl, hhead⟩
      | succ n => exact ih n

variable {renderer : OsdRenderer κ} {frames : List Frame} {rendered : List (ℕ × Image)}

theorem Differing.deliver (h : List.Forall₂ Alike s.frames frames) (frame : Frame) :
    Differing (s.deliver frame) ((s.redrawn renderer frames rendered).deliver frame) := by
  have hlength := h.length_eq
  simp only [SharedFrames.deliver, redrawn]
  split
  · by_cases hraw : frame.type = .raw ∧ frame.data.isSome = true
    · rw [if_pos hraw, if_pos hraw]
      refine ⟨renderer, _, rendered, ?_, List.rel_append h (.cons (.refl _) .nil)⟩
      simp [redrawn, hlength]
    · rw [if_neg hraw, if_neg hraw]
      refine ⟨renderer, _, rendered, ?_, List.rel_append h (.cons (.refl _) .nil)⟩
      simp [redrawn, hlength]
  · exact ⟨renderer, frames, rendered, rfl, h⟩

theorem Differing.rule (h : List.Forall₂ Alike s.frames frames) (engine : RuleEngine) (now : ℤ) :
    Differing (s.rule srt engine now)
      ((s.redrawn renderer frames rendered).rule srt engine now) := by
  simp only [SharedFrames.rule, redrawn]
  split
  · exact ⟨renderer, frames, rendered, rfl, h⟩
  · next n queue hqueue =>
      rcases forall₂_getElem? h n with ⟨hnone, hnone'⟩ | ⟨f, f', hf, hf', halike⟩
      · rw [hnone, hnone']
        exact ⟨renderer, frames, rendered, rfl, h⟩
      · rw [hf, hf']
        exact ⟨renderer, _, rendered, rfl, forall₂_set h (halike.rule engine now) n⟩

theorem Differing.overlay (h : List.Forall₂ Alike s.frames frames) (now : ℤ) :
    Differing (s.overlay osd now) ((s.redrawn renderer frames rendered).overlay osd now) := by
  simp only [SharedFrames.overlay, redrawn]
  split
  · exact ⟨renderer, frames, rendered, rfl, h⟩
  · next n queue hqueue =>
      rcases forall₂_getElem? h n with ⟨hnone, hnone'⟩ | ⟨f, f', hf, hf', halike⟩
      · rw [hnone, hnone']
        exact ⟨renderer, frames, rendered, rfl, h⟩
      · obtain ⟨data, rfl, hsome⟩ := halike
        rw [hf, hf']
        dsimp only
        cases f.type with
        | encoded => exact ⟨renderer, frames, rendered, rfl, h⟩
        | raw =>
            cases hdata : f.data with
            | none =>
                have hdata' : data = none := by simpa [hdata] using hsome
                rw [hdata']
                exact ⟨renderer, frames, rendered, rfl, h⟩
            | some image =>
                have hdata' : data.isSome = true := by rw [hsome, hdata]; rfl
                obtain ⟨image', rfl⟩ := Option.isSome_iff_exists.mp hdata'
                refine ⟨_, _, _, rfl, ?_⟩
                exact forall₂_set h ⟨some _, rfl, rfl⟩ n

/-- A call of `Infer` in both runs. -/
theorem Differing.infer (h : List.Forall₂ Alike s.frames frames) (hs : s.Traced)
    (ht : (s.redrawn renderer frames rendered).Traced) (hsu : s.Undrawn .infer)
    (htu : (s.redrawn renderer frames rendered).Undrawn .infer) :
    Differing s.infer (s.redrawn renderer frames rendered).infer := by
  have hpicture : ∀ n, (s.picture n).isSome =
      ((s.redrawn renderer frames rendered).picture n).isSome := by
    intro n
    rw [picture, picture]
    rcases forall₂_getElem? h n with ⟨hnone, hnone'⟩ | ⟨f, f', hf, hf', data, rfl, hsome⟩
    · rw [hnone, show (s.redrawn renderer frames rendered).frames[n]? = none from hnone']
    · rw [hf, show (s.redrawn renderer frames rendered).frames[n]? = _ from hf']
      exact hsome.symm
  rcases infer_cases s with ⟨hsame, hnone⟩ | ⟨n, image, hworker, himage, hinfer⟩
  · rcases infer_cases (s.redrawn renderer frames rendered) with
      ⟨hsame', -⟩ | ⟨m, image', hworker', himage', -⟩
    · rw [hsame, hsame']
      exact ⟨renderer, frames, rendered, rfl, h⟩
    · have hsome := hpicture m
      rw [hnone m hworker', himage'] at hsome
      cases hsome
  · rcases infer_cases (s.redrawn renderer frames rendered) with
      ⟨-, hnone'⟩ | ⟨m, image', hworker', himage', hinfer'⟩
    · have hsome := hpicture n
      rw [himage, hnone' n hworker] at hsome
      cases hsome
    · cases hworker.symm.trans hworker'
      -- both are the picture that the decoder delivered
      have hdelivered := hs.undrawn hsu hworker himage
      have hdelivered' := ht.undrawn htu hworker' himage'
      cases hdelivered.symm.trans hdelivered'
      rw [hinfer, hinfer']
      exact ⟨renderer, frames, rendered, rfl, h⟩

/-- **One step of both runs.** -/
theorem Differing.step {t : SharedFrames κ} (h : Differing s t) (hs : s.Traced) (ht : t.Traced)
    {a : FrameStep} (hsu : s.Undrawn a) (htu : t.Undrawn a) :
    Differing (s.step osd srt a) (t.step osd srt a) := by
  obtain ⟨renderer, frames, rendered, rfl, hframes⟩ := h
  by_cases ha : Apart a
  · obtain ⟨hstep, hsame⟩ : (s.redrawn renderer frames rendered).step osd srt a =
        (s.step osd srt a).redrawn renderer frames rendered ∧
          (s.step osd srt a).frames = s.frames := step_redrawn ha renderer frames rendered
    exact ⟨renderer, frames, rendered, hstep, hsame ▸ hframes⟩
  · cases a with
    | deliver frame => exact Differing.deliver hframes frame
    | infer => exact Differing.infer hframes hs ht hsu htu
    | rule engine now => exact Differing.rule hframes engine now
    | overlay now => exact Differing.overlay hframes now
    | _ => exact absurd trivial ha

/-- **Both runs** infer on the same pictures. -/
theorem Differing.run {t : SharedFrames κ} {as : List FrameStep} (h : Differing s t)
    (hs : s.Traced) (ht : t.Traced) (hsu : EveryStep (SharedFrames.step osd srt) Undrawn s as)
    (htu : EveryStep (SharedFrames.step osd srt) Undrawn t as) :
    Differing (as.foldl (SharedFrames.step osd srt) s)
      (as.foldl (SharedFrames.step osd srt) t) := by
  induction as generalizing s t with
  | nil => exact h
  | cons a as ih => exact ih (h.step hs ht hsu.1 htu.1) (hs.step a) (ht.step a) hsu.2 htu.2

/-! ### All runs -/

variable (osd srt) (engine : Detector) (confidenceThreshold : ℚ) (skipFrames : ℤ)

theorem traced_start (renderer : OsdRenderer κ) :
    (start engine renderer confidenceThreshold skipFrames).Traced where
  length_eq := rfl
  rendered_lt _ h := nomatch h
  picture_eq _ := rfl

/-- **Inference sees the pictures that the decoder delivered** in exactly the runs in which it comes
before the overlay stage on every frame; two such runs that differ in what the overlay stage is
configured with infer on the same pictures. -/
theorem infersDecoded_iff (as : List FrameStep) (renderer : OsdRenderer κ) :
    (Along (step osd srt) InfersDecoded (start engine renderer confidenceThreshold skipFrames) as ↔
      EveryStep (step osd srt) Undrawn (start engine renderer confidenceThreshold skipFrames) as) ∧
    ∀ renderer' : OsdRenderer κ,
      EveryStep (step osd srt) Undrawn (start engine renderer confidenceThreshold skipFrames) as →
      EveryStep (step osd srt) Undrawn (start engine renderer' confidenceThreshold skipFrames) as →
      (as.foldl (step osd srt) (start engine renderer confidenceThreshold skipFrames)).inferred =
        (as.foldl (step osd srt)
          (start engine renderer' confidenceThreshold skipFrames)).inferred := by
  have htraced := traced_start engine confidenceThreshold skipFrames (κ := κ)
  constructor
  · have hkeep : ∀ (s : SharedFrames κ) (a : FrameStep), s.InfersDecoded ∧ s.Traced →
        s.Undrawn a → (s.step osd srt a).InfersDecoded ∧ (s.step osd srt a).Traced :=
      fun s a hs ha => ⟨(infersDecoded_step hs.2 hs.1 a).mpr ha, hs.2.step a⟩
    have hback : ∀ (s : SharedFrames κ) (a : FrameStep), s.InfersDecoded ∧ s.Traced →
        (s.step osd srt a).InfersDecoded → s.Undrawn a :=
      fun s a hs ha => (infersDecoded_step hs.2 hs.1 a).mp ha
    have hnone : (start engine renderer confidenceThreshold skipFrames).InfersDecoded :=
      fun _ h => nomatch h
    exact along_iff_of_invariant (fun _ hs => hs.1) hkeep hback ⟨hnone, htraced renderer⟩
  · intro renderer' hs ht
    have hstart : Differing (start engine renderer confidenceThreshold skipFrames)
        (start engine renderer' confidenceThreshold skipFrames) := ⟨renderer', [], [], rfl, .nil⟩
    obtain ⟨r, frames, rendered, hrun, -⟩ := hstart.run (htraced renderer) (htraced renderer') hs ht
    rw [hrun]
    rfl

/-- A timestamp that covers the picture in white, and nothing else. -/
def whiteTimestamp : OsdDrawing Unit where
  ruleRegions _ _ image := image
  ruleLines _ _ image := image
  timestamp _ _ image :=
    { image with
      data := image.data.map fun _ => 255
      size_eq := by rw [List.length_map, image.size_eq] }
  channelName _ _ _ image := image
  updateTrajectoryHistory _ _ trajectories := trajectories
  trajectories _ _ image := image
  detections _ _ image := image
  ruleHighlights _ _ image := image

/-- An engine that finds nothing. -/
def idleEngine : Detector where
  infer _ _ := some []

/-- A decoded frame of one black pixel. -/
def blackFrame : Frame where
  info := { width := 1, height := 1, stride := 3 }
  data := some (blackSquare 1 Nat.one_pos)
  origin := 0

/-- The theorem, where the frame is inferred on before it is passed on. -/
theorem infersDecoded_first :
    Along (step whiteTimestamp byIou) InfersDecoded
      (start idleEngine { trajectories := () } (1 / 2) 0)
      [.deliver blackFrame, .count, .submit, .take, .infer, .pass, .rule {} 0, .overlay 0] := by
  refine (infersDecoded_iff whiteTimestamp byIou idleEngine (1 / 2) 0 _
    { trajectories := () }).1.mpr
      ⟨trivial, trivial, trivial, trivial, ?_, trivial, trivial, trivial, trivial⟩
  intro n _ drawn hdrawn
  cases hdrawn

/-- The frame is passed on and drawn into before the inference worker takes it. -/
theorem infersDecoded_refuted :
    ¬ InfersDecoded
      ([.deliver blackFrame, .count, .submit, .pass, .rule {} 0, .overlay 0, .take, .infer].foldl
        (step whiteTimestamp byIou) (start idleEngine { trajectories := () } (1 / 2) 0)) := by
  intro h
  have hpixels := h (0, _) (List.mem_singleton_self _)
  have hdata := congrArg (Option.map Image.data) hpixels
  exact absurd hdata (by decide)

end SharedFrames

end LoongNvr.Channel
