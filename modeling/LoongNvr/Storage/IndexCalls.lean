import LoongNvr.Storage.WriteFailures
import Mathlib.Logic.Function.Basic

/-!
# Storage — IndexCalls

What a recorder has told its index about the files it has written: frames, calls and, for each
channel, its writer's path and the row it holds.

* `Ledger`: these, and nothing else of the recorder.
* `Tracked`: a file with frames has its row, and a row no channel holds has its end.
* `Tracked.finalize`, `Tracked.move`, `Tracked.write`, `Tracked.start`: the changes that keep this.
* `Tracked.register`: the first frame of a new segment, put together from them.
-/

namespace LoongNvr.Storage
open Support
open LoongNvr.Rules (cStr)

variable {segmentPath : ℕ → String}

/-- What matters of a channel's recorder. -/
structure Slot where
  path : String
  isOpen : Bool
  current : ℤ
  deriving DecidableEq

structure Ledger where
  opened : ℕ
  frames : List WrittenFrame
  lastId : ℤ
  calls : List IndexCall
  slots : ℤ → Option Slot

/-- A call that registers a file. -/
def IndexCall.inserts (file : String) : IndexCall → Bool
  | .insertSegment _ row => cStr row.filePath = file
  | .updateSegmentEnd _ => false

/-- A frame of the channel was written to another file after one to this. -/
def LeftFile (frames : List WrittenFrame) (channelId : ℤ) (file : String) : Prop :=
  ∃ a b : WrittenFrame, [a, b].Sublist frames ∧ a.channelId = channelId ∧ a.path = file ∧
    b.channelId = channelId ∧ b.path ≠ file

/-- A channel holds no row, or one without an end whose file it has not left. -/
def Holds (v : Ledger) (channelId segmentId : ℤ) : Prop :=
  segmentId = -1 ∨
    v.calls.count (.updateSegmentEnd segmentId) = 0 ∧
      ∃ row, .insertSegment segmentId row ∈ v.calls ∧ row.channelId = channelId ∧
        ¬ LeftFile v.frames channelId (cStr row.filePath)

/-- A channel's slot: the path is that of a segment that was opened, and if the segment is open and
has a frame, the row that is held is its. -/
structure SlotTracked (segmentPath : ℕ → String) (v : Ledger) (channelId : ℤ) (slot : Slot) :
    Prop where
  holds : Holds v channelId slot.current
  named : slot.isOpen = true ∨ slot.current ≠ -1 → slot.path ≠ ""
  opened : slot.path ≠ "" → ∃ n < v.opened, slot.path = segmentPath n
  registered : slot.isOpen = true → (∃ frame ∈ v.frames, frame.path = cStr slot.path) →
    ∃ row, .insertSegment slot.current row ∈ v.calls ∧ cStr row.filePath = cStr slot.path

/-- **The files are tracked**: one with frames is registered once, by a row of its channel, and a
row that no channel holds has been finalised once. -/
structure Tracked (segmentPath : ℕ → String) (v : Ledger) : Prop where
  opened : ∀ frame ∈ v.frames, ∃ n < v.opened, frame.path = cStr (segmentPath n)
  inserted : ∀ frame ∈ v.frames, v.calls.countP (·.inserts frame.path) = 1
  channel : ∀ frame ∈ v.frames, ∀ id row, .insertSegment id row ∈ v.calls →
    cStr row.filePath = frame.path → row.channelId = frame.channelId
  written : ∀ id row, .insertSegment id row ∈ v.calls →
    ∃ frame ∈ v.frames, frame.path = cStr row.filePath
  ids : 0 ≤ v.lastId ∧ ∀ id row, .insertSegment id row ∈ v.calls → 0 ≤ id ∧ id ≤ v.lastId
  apart : ∀ id row row', .insertSegment id row ∈ v.calls → .insertSegment id row' ∈ v.calls →
    row = row'
  updated : ∀ id, .updateSegmentEnd id ∈ v.calls → ∃ row, .insertSegment id row ∈ v.calls
  finished : ∀ id row, .insertSegment id row ∈ v.calls →
    (∀ slot ∈ v.slots row.channelId, slot.current ≠ id) →
    v.calls.count (.updateSegmentEnd id) = 1
  slots : ∀ channelId slot, v.slots channelId = some slot →
    SlotTracked segmentPath v channelId slot
  separate : ∀ c slot c' slot', v.slots c = some slot → v.slots c' = some slot' →
    slot.isOpen = true → slot'.isOpen = true → slot.path = slot'.path → c = c'

/-- A channel's slot is replaced. -/
def Ledger.put (v : Ledger) (channelId : ℤ) (slot : Option Slot) : Ledger :=
  { v with slots := Function.update v.slots channelId slot }

/-- A frame is written, and a row inserted for its file. -/
def Ledger.begin (v : Ledger) (frame : WrittenFrame) (row : SegmentRow) : Ledger :=
  { v with
      frames := v.frames ++ [frame]
      calls := v.calls ++ [IndexCall.insertSegment (v.lastId + 1) row]
      lastId := v.lastId + 1 }

variable {v : Ledger} {channelId : ℤ} {slot : Slot}

theorem Ledger.put_slots (v : Ledger) (channelId c : ℤ) (slot : Option Slot) :
    (v.put channelId slot).slots c = if c = channelId then slot else v.slots c :=
  Function.update_apply _ _ _ _

/-- A row that no channel holds was held by none but the channel whose slot is replaced. -/
theorem Ledger.not_held_of_put (hslot : v.slots channelId = some slot) {slot' : Option Slot}
    {c id : ℤ} (hne : slot.current ≠ id)
    (hheld : ∀ other ∈ (v.put channelId slot').slots c, other.current ≠ id) :
    ∀ other ∈ v.slots c, other.current ≠ id := by
  intro other hother
  rw [Ledger.put_slots] at hheld
  split at hheld
  · rename_i hc
    rw [hc, hslot] at hother
    obtain rfl := Option.some.inj hother
    exact hne
  · exact hheld other hother

/-- Nothing is written, and nothing recorded. -/
theorem tracked_empty (segmentPath : ℕ → String) (opened : ℕ) {lastId : ℤ}
    (hlastId : 0 ≤ lastId) :
    Tracked segmentPath
      { opened := opened, frames := [], lastId := lastId, calls := [], slots := fun _ => none } where
  opened _ h := absurd h List.not_mem_nil
  inserted _ h := absurd h List.not_mem_nil
  channel _ h := absurd h List.not_mem_nil
  written _ _ h := absurd h List.not_mem_nil
  ids := ⟨hlastId, fun _ _ h => absurd h List.not_mem_nil⟩
  apart _ _ _ h := absurd h List.not_mem_nil
  updated _ h := absurd h List.not_mem_nil
  finished _ _ h := absurd h List.not_mem_nil
  slots _ _ h := absurd h (by simp)
  separate _ _ _ _ h := absurd h (by simp)

/-! ### Frames -/

theorem leftFile_concat {frames : List WrittenFrame} {frame : WrittenFrame} {file : String}
    (h : LeftFile (frames ++ [frame]) channelId file) :
    LeftFile frames channelId file ∨ frame.channelId = channelId ∧ frame.path ≠ file := by
  obtain ⟨a, b, hsub, ha, hapath, hb, hbpath⟩ := h
  obtain ⟨front, last, heq, hfront, hlast⟩ := List.sublist_append_iff.mp hsub
  rcases List.sublist_singleton.mp hlast with rfl | rfl
  · rw [List.append_nil] at heq
    exact .inl ⟨a, b, heq ▸ hfront, ha, hapath, hb, hbpath⟩
  · obtain rfl : frame = b := by
      have hlast := congrArg List.getLast? heq
      simpa using hlast.symm
    exact .inr ⟨hb, hbpath⟩

theorem SlotTracked.of_open (hs : SlotTracked segmentPath v channelId slot)
    (hopen : slot.isOpen = true) : ∃ n < v.opened, slot.path = segmentPath n :=
  hs.opened (hs.named (.inl hopen))

/-- A slot that no new frame and no new call is about. -/
theorem SlotTracked.of_more {v' : Ledger} (hs : SlotTracked segmentPath v channelId slot)
    (hopened : v.opened ≤ v'.opened)
    (hcalls : ∀ call ∈ v.calls, call ∈ v'.calls)
    (hcount : v'.calls.count (.updateSegmentEnd slot.current) =
      v.calls.count (.updateSegmentEnd slot.current))
    (hleft : ∀ file, LeftFile v'.frames channelId file → LeftFile v.frames channelId file)
    (hframes : slot.isOpen = true → ∀ frame ∈ v'.frames, frame.path = cStr slot.path →
      ∃ frame ∈ v.frames, frame.path = cStr slot.path) :
    SlotTracked segmentPath v' channelId slot where
  holds := by
    rcases hs.holds with hnone | ⟨hzero, row, hrow, hchannel, hstill⟩
    · exact .inl hnone
    · exact .inr ⟨hcount.trans hzero, row, hcalls _ hrow, hchannel, fun h => hstill (hleft _ h)⟩
  named := hs.named
  opened hne := by
    obtain ⟨n, hn, hpath⟩ := hs.opened hne
    exact ⟨n, hn.trans_le hopened, hpath⟩
  registered := by
    rintro hopen ⟨frame, hframe, hpath⟩
    obtain ⟨row, hrow, hfile⟩ := hs.registered hopen (hframes hopen frame hframe hpath)
    exact ⟨row, hcalls _ hrow, hfile⟩

theorem SlotTracked.put (hs : SlotTracked segmentPath v channelId slot) (c : ℤ)
    (other : Option Slot) : SlotTracked segmentPath (v.put c other) channelId slot :=
  hs.of_more le_rfl (fun _ => id) rfl (fun _ => id) fun _ frame hframe hpath =>
    ⟨frame, hframe, hpath⟩

theorem count_update_append (calls : List IndexCall) (id id' : ℤ) :
    (calls ++ [IndexCall.updateSegmentEnd id']).count (IndexCall.updateSegmentEnd id) =
      calls.count (IndexCall.updateSegmentEnd id) + if id = id' then 1 else 0 := by
  rw [List.count_append, List.count_singleton]
  by_cases heq : id = id'
  · simp [heq]
  · simp [heq, Ne.symm heq]

section Begin

variable {frame other : WrittenFrame} {row row' : SegmentRow} {id : ℤ}

theorem Ledger.mem_frames_begin :
    other ∈ (v.begin frame row).frames ↔ other ∈ v.frames ∨ other = frame := by
  simp [Ledger.begin]

theorem Ledger.insert_mem_begin :
    .insertSegment id row' ∈ (v.begin frame row).calls ↔
      .insertSegment id row' ∈ v.calls ∨ id = v.lastId + 1 ∧ row' = row := by
  simp [Ledger.begin]

theorem Ledger.update_mem_begin :
    .updateSegmentEnd id ∈ (v.begin frame row).calls ↔ .updateSegmentEnd id ∈ v.calls := by
  simp [Ledger.begin]

theorem Ledger.count_begin :
    (v.begin frame row).calls.count (.updateSegmentEnd id) =
      v.calls.count (.updateSegmentEnd id) := by
  rw [Ledger.begin, List.count_append]
  rfl

end Begin

namespace Tracked

variable (h : Tracked segmentPath v)

include h

/-- The id of a row is not that of none. -/
theorem id_ne {id : ℤ} {row : SegmentRow} (hrow : .insertSegment id row ∈ v.calls) : id ≠ -1 := by
  rintro rfl
  exact absurd (h.ids.2 _ _ hrow).1 (by decide)

/-- The row a channel holds is its own. -/
theorem channel_of_current (hslot : v.slots channelId = some slot) {row : SegmentRow}
    (hrow : .insertSegment slot.current row ∈ v.calls) : row.channelId = channelId := by
  rcases (h.slots channelId slot hslot).holds with hnone | ⟨-, row', hrow', hchannel, -⟩
  · exact absurd hnone (h.id_ne hrow)
  · rw [h.apart _ _ _ hrow hrow']
    exact hchannel

theorem updates_le_one {id : ℤ} {row : SegmentRow} (hrow : .insertSegment id row ∈ v.calls) :
    v.calls.count (.updateSegmentEnd id) ≤ 1 := by
  by_cases hheld : ∃ slot ∈ v.slots row.channelId, slot.current = id
  · obtain ⟨slot, hslot, rfl⟩ := hheld
    rcases (h.slots _ _ hslot).holds with hnone | ⟨hcount, -⟩
    · exact absurd hnone (h.id_ne hrow)
    · rw [hcount]
      exact Nat.zero_le _
  · refine (h.finished id row hrow fun slot hslot hcurrent => hheld ⟨slot, hslot, hcurrent⟩).le

/-- A row of a channel that is not recording, or that has left the row's file, has its end. -/
theorem updates_eq_one {id : ℤ} {row : SegmentRow} (hrow : .insertSegment id row ∈ v.calls)
    (hdone : v.slots row.channelId = none ∨
      LeftFile v.frames row.channelId (cStr row.filePath)) :
    v.calls.count (.updateSegmentEnd id) = 1 := by
  refine h.finished id row hrow fun slot hslot hcurrent => ?_
  obtain hnone | hleft := hdone
  · rw [hnone] at hslot
    exact absurd hslot (by simp)
  · rcases (h.slots _ _ hslot).holds with hnone | ⟨-, row', hrow', -, hstill⟩
    · exact absurd (hcurrent.symm.trans hnone) (h.id_ne hrow)
    · rw [hcurrent] at hrow'
      exact hstill (h.apart _ _ _ hrow' hrow ▸ hleft)

/-! ### Changes -/

/-- Another slot for a channel. -/
theorem put {slot' : Option Slot}
    (hfinished : ∀ id row, .insertSegment id row ∈ v.calls → row.channelId = channelId →
      (∀ slot ∈ slot', slot.current ≠ id) → v.calls.count (.updateSegmentEnd id) = 1)
    (hslot : ∀ slot ∈ slot', SlotTracked segmentPath v channelId slot)
    (hseparate : ∀ slot ∈ slot', slot.isOpen = true → ∀ c other, c ≠ channelId →
      v.slots c = some other → other.isOpen = true → slot.path ≠ other.path) :
    Tracked segmentPath (v.put channelId slot') where
  opened := h.opened
  inserted := h.inserted
  channel := h.channel
  written := h.written
  ids := h.ids
  apart := h.apart
  updated := h.updated
  finished id row hrow hheld := by
    rw [Ledger.put_slots] at hheld
    split at hheld
    · exact hfinished id row hrow ‹_› hheld
    · exact h.finished id row hrow hheld
  slots c slot hc := by
    rw [Ledger.put_slots] at hc
    split at hc
    · rename_i heq
      subst heq
      exact (hslot slot hc).put _ _
    · exact (h.slots c slot hc).put _ _
  separate c slot c' other hc hc' hopen hopen' hpath := by
    rw [Ledger.put_slots] at hc hc'
    by_contra hne
    split at hc
    · split at hc'
      · simp_all
      · exact hseparate slot hc hopen c' other ‹_› hc' hopen' hpath
    · split at hc'
      · exact hseparate other hc' hopen' c slot ‹_› hc hopen hpath.symm
      · exact hne (h.separate c slot c' other hc hc' hopen hopen' hpath)

/-- A channel that holds no row may have any slot without one, whose file has no frame. -/
theorem put_unheld (hslot : ∀ slot ∈ v.slots channelId, slot.current = -1) {slot' : Option Slot}
    (hnone : ∀ slot ∈ slot', slot.current = -1)
    (hnamed : ∀ slot ∈ slot', slot.isOpen = true → slot.path ≠ "")
    (hopened : ∀ slot ∈ slot', slot.path ≠ "" → ∃ n < v.opened, slot.path = segmentPath n)
    (hfresh : ∀ slot ∈ slot', slot.isOpen = true →
      ∀ frame ∈ v.frames, frame.path ≠ cStr slot.path)
    (hseparate : ∀ slot ∈ slot', slot.isOpen = true → ∀ c other, c ≠ channelId →
      v.slots c = some other → other.isOpen = true → slot.path ≠ other.path) :
    Tracked segmentPath (v.put channelId slot') := by
  refine h.put (fun id row hrow hchannel _ => ?_) (fun slot hmem => ?_) hseparate
  · refine h.finished id row hrow fun slot hmem hcurrent => ?_
    exact h.id_ne hrow (hcurrent.symm.trans (hslot slot (hchannel ▸ hmem)))
  · refine ⟨.inl (hnone slot hmem), fun hnamed' => ?_, hopened slot hmem, ?_⟩
    · exact hnamed slot hmem (hnamed'.resolve_right fun hne => hne (hnone slot hmem))
    rintro hopen ⟨frame, hframe, hpath⟩
    exact absurd hpath (hfresh slot hmem hopen frame hframe)

/-- Slots stay apart where one is replaced by one with its file. -/
theorem separate_put (hslot : v.slots channelId = some slot) {slot' : Option Slot}
    (hslot' : ∀ other ∈ slot', other.path = slot.path ∧ other.isOpen = slot.isOpen) {c c' : ℤ}
    {a b : Slot} (hc : (v.put channelId slot').slots c = some a)
    (hc' : (v.put channelId slot').slots c' = some b) (hopen : a.isOpen = true)
    (hopen' : b.isOpen = true) (hpath : a.path = b.path) : c = c' := by
  -- each slot has the file of one that was there
  have hfile : ∀ {c : ℤ} {a : Slot}, (v.put channelId slot').slots c = some a →
      ∃ a', v.slots c = some a' ∧ a.path = a'.path ∧ a.isOpen = a'.isOpen := by
    intro c a hc
    rw [Ledger.put_slots] at hc
    split at hc
    · rename_i heq
      exact ⟨slot, heq ▸ hslot, hslot' a hc⟩
    · exact ⟨a, hc, rfl, rfl⟩
  obtain ⟨a', ha, hapath, haopen⟩ := hfile hc
  obtain ⟨b', hb, hbpath, hbopen⟩ := hfile hc'
  rw [haopen] at hopen
  rw [hbopen] at hopen'
  exact h.separate c a' c' b' ha hb hopen hopen' (hapath.symm.trans (hpath.trans hbpath))

/-- **A row gets its end**, and its channel holds it no more. -/
theorem finalize (hslot : v.slots channelId = some slot) (hcurrent : slot.current ≠ -1)
    {slot' : Option Slot}
    (hslot' : ∀ other ∈ slot', other = { slot with current := -1 } ∧
      ∀ frame ∈ v.frames, frame.path ≠ cStr slot.path) :
    Tracked segmentPath
      ({ v with calls := v.calls ++ [IndexCall.updateSegmentEnd slot.current] }.put channelId
        slot') := by
  have hs := h.slots channelId slot hslot
  obtain ⟨hzero, row, hrow, hchannel, -⟩ := hs.holds.resolve_left hcurrent
  have hmem : ∀ {id : ℤ} {row : SegmentRow},
      .insertSegment id row ∈ v.calls ++ [.updateSegmentEnd slot.current] ↔
        .insertSegment id row ∈ v.calls := by simp
  refine ⟨h.opened, ?_, ?_, ?_, ⟨h.ids.1, ?_⟩, ?_, ?_, ?_, ?_, ?_⟩
  · intro frame hframe
    show (v.calls ++ [_]).countP _ = 1
    rw [List.countP_append, h.inserted frame hframe]
    rfl
  · exact fun frame hframe id row hrow => h.channel frame hframe id row (hmem.mp hrow)
  · exact fun id row hrow => h.written id row (hmem.mp hrow)
  · exact fun id row hrow => h.ids.2 id row (hmem.mp hrow)
  · exact fun id row row' hrow hrow' => h.apart id row row' (hmem.mp hrow) (hmem.mp hrow')
  · intro id hid
    obtain hold | hnew := List.mem_append.mp hid
    · obtain ⟨row, hrow⟩ := h.updated id hold
      exact ⟨row, hmem.mpr hrow⟩
    · obtain rfl := IndexCall.updateSegmentEnd.inj (List.mem_singleton.mp hnew)
      exact ⟨row, hmem.mpr hrow⟩
  · intro id row' hrow' hheld
    show (v.calls ++ [_]).count _ = 1
    rw [count_update_append]
    by_cases heq : id = slot.current
    · -- the row that was held
      rw [if_pos heq, heq, hzero]
    · rw [if_neg heq, Nat.add_zero]
      exact h.finished id row' (hmem.mp hrow')
        (Ledger.not_held_of_put hslot (Ne.symm heq) hheld)
  · intro c other hc
    rw [Ledger.put_slots] at hc
    split at hc
    · rename_i heq
      subst heq
      obtain ⟨rfl, hfresh⟩ := hslot' other hc
      refine ⟨.inl rfl, fun hnamed => hs.named (hnamed.imp_right fun hne => absurd rfl hne),
        hs.opened, ?_⟩
      rintro - ⟨frame, hframe, hpath⟩
      exact absurd hpath (hfresh frame hframe)
    · rename_i hne
      have hmore : SlotTracked segmentPath
          { v with calls := v.calls ++ [IndexCall.updateSegmentEnd slot.current] } c other := by
        refine (h.slots c other hc).of_more le_rfl (fun call => List.mem_append_left _) ?_
          (fun _ => id) fun _ frame hframe hpath => ⟨frame, hframe, hpath⟩
        rw [count_update_append, if_neg, Nat.add_zero]
        -- another channel holds another row
        intro heq
        refine hne ((h.channel_of_current hc ?_).symm.trans hchannel)
        exact heq ▸ hrow
      exact hmore.put _ _
  · intro c a c' b hc hc' hopen hopen' hpath
    refine h.separate_put hslot (fun other hother => ?_) hc hc' hopen hopen' hpath
    obtain ⟨rfl, -⟩ := hslot' other hother
    exact ⟨rfl, rfl⟩

/-- **The writer moves** to a file that was not there. -/
theorem move (hpaths : Function.Injective fun n => cStr (segmentPath n))
    (hnonempty : ∀ n, segmentPath n ≠ "") (hslot : v.slots channelId = some slot) {n : ℕ}
    (hn : v.opened ≤ n) (isOpen : Bool) :
    Tracked segmentPath ({ v with opened := n + 1 }.put channelId
      (some { path := segmentPath n, isOpen := isOpen, current := slot.current })) := by
  have hs := h.slots channelId slot hslot
  have hnew : ∀ m < v.opened, cStr (segmentPath n) ≠ cStr (segmentPath m) := by
    intro m hm heq
    have := hpaths heq
    omega
  have hmore : v.opened ≤ n + 1 := by omega
  have hv : Tracked segmentPath { v with opened := n + 1 } := by
    refine ⟨fun frame hframe => ?_, h.inserted, h.channel, h.written, h.ids, h.apart, h.updated,
      h.finished, fun c other hc => ?_, h.separate⟩
    · obtain ⟨m, hm, hpath⟩ := h.opened frame hframe
      exact ⟨m, hm.trans_le hmore, hpath⟩
    · exact (h.slots c other hc).of_more hmore (fun _ => id) rfl (fun _ => id)
        fun _ frame hframe hpath => ⟨frame, hframe, hpath⟩
  refine hv.put ?_ ?_ ?_
  · intro id row hrow hchannel hheld
    refine h.finished id row hrow fun other hother hcurrent => ?_
    rw [hchannel, hslot] at hother
    obtain rfl := Option.some.inj hother
    exact hheld _ rfl hcurrent
  · rintro _ ⟨⟩
    refine ⟨hs.holds, fun _ => hnonempty n, fun _ => ⟨n, Nat.lt_succ_self n, rfl⟩, ?_⟩
    rintro - ⟨frame, hframe, hpath⟩
    obtain ⟨m, hm, hframePath⟩ := h.opened frame hframe
    exact absurd (hpath.symm.trans hframePath) (hnew m hm)
  · rintro _ ⟨⟩ - c other - hc hopen heq
    obtain ⟨m, hm, hpath⟩ := (h.slots c other hc).of_open hopen
    exact hnew m hm (congrArg cStr (heq.trans hpath))

/-- Two channels write to two files. -/
theorem path_eq (hpaths : Function.Injective fun n => cStr (segmentPath n)) {c : ℤ} {other : Slot}
    (hslot : v.slots channelId = some slot) (hother : v.slots c = some other)
    (hopen : slot.isOpen = true) (hopen' : other.isOpen = true)
    (hpath : cStr slot.path = cStr other.path) : channelId = c := by
  obtain ⟨n, -, hslotPath⟩ := (h.slots channelId slot hslot).of_open hopen
  obtain ⟨m, -, hotherPath⟩ := (h.slots c other hother).of_open hopen'
  have hnum : n = m := hpaths (by
    show cStr (segmentPath n) = cStr (segmentPath m)
    rw [← hslotPath, ← hotherPath, hpath])
  refine h.separate channelId slot c other hslot hother hopen hopen' ?_
  rw [hslotPath, hotherPath, hnum]

/-- A frame is written to a file that was opened. -/
theorem opened_concat (hslot : v.slots channelId = some slot) (hopen : slot.isOpen = true)
    {frame : WrittenFrame} (hpath : frame.path = cStr slot.path) :
    ∀ other ∈ v.frames ++ [frame], ∃ n < v.opened, other.path = cStr (segmentPath n) := by
  intro other hother
  obtain hold | hnew := List.mem_append.mp hother
  · exact h.opened other hold
  · obtain rfl := List.mem_singleton.mp hnew
    obtain ⟨n, hn, hslotPath⟩ := (h.slots channelId slot hslot).of_open hopen
    exact ⟨n, hn, hpath.trans (congrArg cStr hslotPath)⟩

/-- A frame is not about the slots of other channels. -/
theorem slot_concat (hpaths : Function.Injective fun n => cStr (segmentPath n))
    (hslot : v.slots channelId = some slot) (hopen : slot.isOpen = true) {frame : WrittenFrame}
    (hpath : frame.path = cStr slot.path) (hchannel : frame.channelId = channelId) (v' : Ledger)
    (hframes : v'.frames = v.frames ++ [frame]) (hopened : v.opened ≤ v'.opened)
    (hcalls : ∀ call ∈ v.calls, call ∈ v'.calls)
    (hcount : ∀ id, v'.calls.count (.updateSegmentEnd id) = v.calls.count (.updateSegmentEnd id))
    {c : ℤ} (hne : c ≠ channelId) {other : Slot} (hc : v.slots c = some other) :
    SlotTracked segmentPath v' c other := by
  refine (h.slots c other hc).of_more hopened hcalls (hcount _) (fun file hleft => ?_) ?_
  · rw [hframes] at hleft
    obtain hleft | ⟨hsame, -⟩ := leftFile_concat hleft
    · exact hleft
    · exact absurd (hsame.symm.trans hchannel) hne
  · intro hopen' frame' hframe' hpath'
    rw [hframes] at hframe'
    obtain hold | hnew := List.mem_append.mp hframe'
    · exact ⟨frame', hold, hpath'⟩
    · obtain rfl := List.mem_singleton.mp hnew
      -- two channels have no file in common
      exact absurd (h.path_eq hpaths hslot hc hopen hopen' (hpath.symm.trans hpath'))
        (Ne.symm hne)

/-- **Another frame** in the file of the row that is held. -/
theorem write (hpaths : Function.Injective fun n => cStr (segmentPath n))
    (hslot : v.slots channelId = some slot) (hopen : slot.isOpen = true)
    (hframes : ∃ frame ∈ v.frames, frame.path = cStr slot.path) {frame : WrittenFrame}
    (hpath : frame.path = cStr slot.path) (hchannel : frame.channelId = channelId) :
    Tracked segmentPath { v with frames := v.frames ++ [frame] } := by
  have hs := h.slots channelId slot hslot
  obtain ⟨row, hrow, hfile⟩ := hs.registered hopen hframes
  obtain ⟨before, hbefore, hbeforePath⟩ := hframes
  have hrowChannel := h.channel_of_current hslot hrow
  have hbeforeChannel : before.channelId = channelId := by
    rw [← h.channel before hbefore _ row hrow (hfile.trans hbeforePath.symm), hrowChannel]
  refine ⟨h.opened_concat hslot hopen hpath, ?_, ?_, ?_, h.ids, h.apart, h.updated, h.finished, ?_,
    h.separate⟩
  · intro other hother
    obtain hold | hnew := List.mem_append.mp hother
    · exact h.inserted other hold
    · obtain rfl := List.mem_singleton.mp hnew
      rw [hpath, ← hbeforePath]
      exact h.inserted before hbefore
  · intro other hother id row' hrow' hfile'
    obtain hold | hnew := List.mem_append.mp hother
    · exact h.channel other hold id row' hrow' hfile'
    · obtain rfl := List.mem_singleton.mp hnew
      rw [hchannel, ← hbeforeChannel]
      exact h.channel before hbefore id row' hrow' (by rw [hfile', hpath, hbeforePath])
  · intro id row' hrow'
    obtain ⟨other, hother, hotherPath⟩ := h.written id row' hrow'
    exact ⟨other, List.mem_append_left _ hother, hotherPath⟩
  · intro c other hc
    by_cases heq : c = channelId
    · subst heq
      obtain rfl := Option.some.inj (hc.symm.trans hslot)
      refine ⟨?_, hs.named, hs.opened, fun _ _ => ⟨row, hrow, hfile⟩⟩
      rcases hs.holds with hnone | ⟨hzero, row', hrow', hchannel', hstill⟩
      · exact .inl hnone
      · refine .inr ⟨hzero, row', hrow', hchannel', fun hleft => ?_⟩
        obtain hleft | ⟨-, hne⟩ := leftFile_concat hleft
        · exact hstill hleft
        · rw [h.apart _ _ _ hrow' hrow, hfile] at hne
          exact hne hpath
    · exact h.slot_concat hpaths hslot hopen hpath hchannel { v with frames := v.frames ++ [frame] }
        rfl le_rfl (fun _ => id) (fun _ => rfl) heq hc

/-! ### The first frame of a file -/

section Start

variable {frame : WrittenFrame} {row : SegmentRow}

/-- The file of a slot has no row before it has a frame. -/
theorem rows_of_fresh (hfresh : ∀ frame ∈ v.frames, frame.path ≠ cStr slot.path) :
    ∀ id row, .insertSegment id row ∈ v.calls → cStr row.filePath ≠ cStr slot.path := by
  intro id row hrow heq
  obtain ⟨other, hother, hotherPath⟩ := h.written id row hrow
  exact hfresh other hother (hotherPath.trans heq)

theorem inserted_begin (hfresh : ∀ frame ∈ v.frames, frame.path ≠ cStr slot.path)
    (hpath : frame.path = cStr slot.path) (hfile : cStr row.filePath = cStr slot.path) :
    ∀ other ∈ (v.begin frame row).frames,
      (v.begin frame row).calls.countP (·.inserts other.path) = 1 := by
  intro other hother
  rw [Ledger.begin, List.countP_append]
  obtain hold | rfl := Ledger.mem_frames_begin.mp hother
  · rw [h.inserted other hold, List.countP_singleton, if_neg]
    rw [IndexCall.inserts, decide_eq_true_eq, hfile]
    exact (hfresh other hold).symm
  · have hzero : v.calls.countP (·.inserts other.path) = 0 := by
      refine List.countP_eq_zero.mpr fun call hcall hinserts => ?_
      cases call with
      | updateSegmentEnd id => exact absurd hinserts (by simp [IndexCall.inserts])
      | insertSegment id row' =>
          exact h.rows_of_fresh hfresh id row' hcall ((of_decide_eq_true hinserts).trans hpath)
    have hinserts : IndexCall.inserts other.path (.insertSegment (v.lastId + 1) row) = true :=
      decide_eq_true (hfile.trans hpath.symm)
    rw [hzero, List.countP_singleton, if_pos hinserts]

theorem channel_begin (hfresh : ∀ frame ∈ v.frames, frame.path ≠ cStr slot.path)
    (hpath : frame.path = cStr slot.path) (hfile : cStr row.filePath = cStr slot.path)
    (hchannel : row.channelId = frame.channelId) :
    ∀ other ∈ (v.begin frame row).frames, ∀ id row',
      .insertSegment id row' ∈ (v.begin frame row).calls → cStr row'.filePath = other.path →
        row'.channelId = other.channelId := by
  intro other hother id row' hrow' hfile'
  obtain hold | ⟨rfl, rfl⟩ := Ledger.insert_mem_begin.mp hrow'
  · obtain hother | rfl := Ledger.mem_frames_begin.mp hother
    · exact h.channel other hother id row' hold hfile'
    · exact absurd (hfile'.trans hpath) (h.rows_of_fresh hfresh id row' hold)
  · obtain hother | rfl := Ledger.mem_frames_begin.mp hother
    · exact absurd (hfile'.symm.trans hfile) (hfresh other hother)
    · exact hchannel

theorem written_begin (hpath : frame.path = cStr row.filePath) :
    ∀ id row', .insertSegment id row' ∈ (v.begin frame row).calls →
      ∃ other ∈ (v.begin frame row).frames, other.path = cStr row'.filePath := by
  intro id row' hrow'
  obtain hold | ⟨rfl, rfl⟩ := Ledger.insert_mem_begin.mp hrow'
  · obtain ⟨other, hother, hotherPath⟩ := h.written id row' hold
    exact ⟨other, Ledger.mem_frames_begin.mpr (.inl hother), hotherPath⟩
  · exact ⟨frame, Ledger.mem_frames_begin.mpr (.inr rfl), hpath⟩

theorem ids_begin (frame : WrittenFrame) (row : SegmentRow) :
    0 ≤ (v.begin frame row).lastId ∧
      ∀ id row', .insertSegment id row' ∈ (v.begin frame row).calls →
        0 ≤ id ∧ id ≤ (v.begin frame row).lastId := by
  obtain ⟨hlast, hids⟩ := h.ids
  refine ⟨Int.le_add_one hlast, fun id row' hrow' => ?_⟩
  obtain hold | ⟨rfl, -⟩ := Ledger.insert_mem_begin.mp hrow'
  · obtain ⟨hpositive, hle⟩ := hids id row' hold
    exact ⟨hpositive, Int.le_add_one hle⟩
  · exact ⟨Int.le_add_one hlast, le_rfl⟩

/-- The id is new. -/
theorem not_mem_of_next (row : SegmentRow) : .insertSegment (v.lastId + 1) row ∉ v.calls := by
  intro hrow
  have := (h.ids.2 _ _ hrow).2
  omega

theorem apart_begin (frame : WrittenFrame) (row : SegmentRow) :
    ∀ id a b, .insertSegment id a ∈ (v.begin frame row).calls →
      .insertSegment id b ∈ (v.begin frame row).calls → a = b := by
  intro id a b ha hb
  obtain hold | ⟨rfl, rfl⟩ := Ledger.insert_mem_begin.mp ha
  · obtain hold' | ⟨rfl, rfl⟩ := Ledger.insert_mem_begin.mp hb
    · exact h.apart id a b hold hold'
    · exact absurd hold (h.not_mem_of_next a)
  · obtain hold | ⟨-, rfl⟩ := Ledger.insert_mem_begin.mp hb
    · exact absurd hold (h.not_mem_of_next b)
    · rfl

theorem updated_begin (frame : WrittenFrame) (row : SegmentRow) :
    ∀ id, .updateSegmentEnd id ∈ (v.begin frame row).calls →
      ∃ row', .insertSegment id row' ∈ (v.begin frame row).calls := by
  intro id hid
  obtain ⟨row', hrow'⟩ := h.updated id (Ledger.update_mem_begin.mp hid)
  exact ⟨row', Ledger.insert_mem_begin.mpr (.inl hrow')⟩

/-- A row that was not held is not held now; the new one is. -/
theorem finished_begin (hslot : v.slots channelId = some slot) (hcurrent : slot.current = -1)
    (hrowChannel : row.channelId = channelId) :
    ∀ id row', .insertSegment id row' ∈ (v.begin frame row).calls →
      (∀ other ∈ ((v.begin frame row).put channelId
        (some { slot with current := v.lastId + 1 })).slots row'.channelId, other.current ≠ id) →
      (v.begin frame row).calls.count (.updateSegmentEnd id) = 1 := by
  intro id row' hrow' hheld
  rw [Ledger.count_begin]
  obtain hold | ⟨rfl, rfl⟩ := Ledger.insert_mem_begin.mp hrow'
  · have hne : slot.current ≠ id := fun hid => h.id_ne hold (hid.symm.trans hcurrent)
    exact h.finished id row' hold (Ledger.not_held_of_put hslot hne hheld)
  · rw [Ledger.put_slots, if_pos hrowChannel] at hheld
    exact absurd rfl (hheld { slot with current := v.lastId + 1 } rfl)

/-- The channel holds the new row. -/
theorem slot_begin (hslot : v.slots channelId = some slot) (hnamed : slot.path ≠ "")
    (hfresh : ∀ frame ∈ v.frames, frame.path ≠ cStr slot.path)
    (hpath : frame.path = cStr slot.path) (hfile : cStr row.filePath = cStr slot.path)
    (hrowChannel : row.channelId = channelId) :
    SlotTracked segmentPath (v.begin frame row) channelId
      { slot with current := v.lastId + 1 } := by
  have hrow : .insertSegment (v.lastId + 1) row ∈ (v.begin frame row).calls :=
    Ledger.insert_mem_begin.mpr (.inr ⟨rfl, rfl⟩)
  have hzero : (v.begin frame row).calls.count (.updateSegmentEnd (v.lastId + 1)) = 0 := by
    rw [Ledger.count_begin]
    refine List.count_eq_zero.mpr fun hmem => ?_
    obtain ⟨row', hrow'⟩ := h.updated _ hmem
    exact h.not_mem_of_next row' hrow'
  refine ⟨.inr ⟨hzero, row, hrow, hrowChannel, fun hleft => ?_⟩, fun _ => hnamed,
    (h.slots channelId slot hslot).opened, fun _ _ => ⟨row, hrow, hfile⟩⟩
  -- the frame just written is the file's only one
  obtain ⟨a, b, hsub, -, hapath, -⟩ | ⟨-, hne⟩ := leftFile_concat hleft
  · exact hfresh a (hsub.subset List.mem_cons_self) (hapath.trans hfile)
  · exact hne (hpath.trans hfile.symm)

/-- **The first frame** of a file, and the row that registers it. -/
theorem start (hpaths : Function.Injective fun n => cStr (segmentPath n))
    (hslot : v.slots channelId = some slot) (hcurrent : slot.current = -1)
    (hnamed : slot.path ≠ "") (hopen : slot.isOpen = true)
    (hfresh : ∀ frame ∈ v.frames, frame.path ≠ cStr slot.path)
    (hpath : frame.path = cStr slot.path) (hchannel : frame.channelId = channelId)
    (hfile : cStr row.filePath = cStr slot.path) (hrowChannel : row.channelId = channelId) :
    Tracked segmentPath
      ((v.begin frame row).put channelId (some { slot with current := v.lastId + 1 })) where
  opened := h.opened_concat hslot hopen hpath
  inserted := h.inserted_begin hfresh hpath hfile
  channel := h.channel_begin hfresh hpath hfile (hrowChannel.trans hchannel.symm)
  written := h.written_begin (hpath.trans hfile.symm)
  ids := h.ids_begin frame row
  apart := h.apart_begin frame row
  updated := h.updated_begin frame row
  finished := h.finished_begin hslot hcurrent hrowChannel
  slots c other hc := by
    rw [Ledger.put_slots] at hc
    split at hc
    · rename_i heq
      subst heq
      obtain rfl := Option.some.inj hc
      exact (h.slot_begin hslot hnamed hfresh hpath hfile hrowChannel).put _ _
    · rename_i hne
      have hother : SlotTracked segmentPath (v.begin frame row) c other :=
        h.slot_concat hpaths hslot hopen hpath hchannel (v.begin frame row) rfl le_rfl
          (fun call => List.mem_append_left _) (fun _ => Ledger.count_begin) hne hc
      exact hother.put _ _
  separate c a c' b hc hc' hopen hopen' hpath := by
    refine h.separate_put hslot (fun other hother => ?_) hc hc' hopen hopen' hpath
    obtain rfl := Option.some.inj hother
    exact ⟨rfl, rfl⟩

end Start

/-! ### A new segment -/

/-- The row a channel holds, if it holds one, gets its end. -/
theorem finalizeHeld (hslot : v.slots channelId = some slot) {slot' : Option Slot}
    (hslot' : ∀ other ∈ slot', other = { slot with current := -1 } ∧
      ∀ frame ∈ v.frames, frame.path ≠ cStr slot.path) :
    Tracked segmentPath
      ({ v with
          calls :=
            if slot.current < 0 then v.calls
            else v.calls ++ [IndexCall.updateSegmentEnd slot.current] }.put channelId slot') := by
  split
  · rename_i hnegative
    -- a row that is held has an id that is not negative
    have hnone : slot.current = -1 := by
      rcases (h.slots _ _ hslot).holds with hnone | ⟨-, row, hrow, -⟩
      · exact hnone
      · exact absurd hnegative (not_lt_of_ge (h.ids.2 _ _ hrow).1)
    refine h.put_unheld ?_ ?_ ?_ ?_ ?_ ?_
    · rintro other hmem
      rw [hslot] at hmem
      obtain rfl := Option.some.inj hmem
      exact hnone
    · rintro other hother
      rw [(hslot' other hother).1]
    · rintro other hother hopen
      rw [(hslot' other hother).1] at hopen ⊢
      exact (h.slots _ _ hslot).named (.inl hopen)
    · rintro other hother hne
      rw [(hslot' other hother).1] at hne ⊢
      exact (h.slots _ _ hslot).opened hne
    · rintro other hother -
      rw [(hslot' other hother).1]
      exact (hslot' other hother).2
    · rintro other hother hopen c slot hne hc hopen' hpath
      rw [(hslot' other hother).1] at hopen hpath
      exact hne (h.separate _ _ _ _ hc hslot hopen' hopen hpath.symm)
  · rename_i hheld
    refine h.finalize hslot (fun hnone => hheld ?_) hslot'
    rw [hnone]
    decide

/-- A segment that was not opened has no frames. -/
theorem fresh_of_opened (hpaths : Function.Injective fun n => cStr (segmentPath n)) {n : ℕ}
    (hn : v.opened ≤ n) : ∀ frame ∈ v.frames, frame.path ≠ cStr (segmentPath n) := by
  intro frame hframe heq
  obtain ⟨m, hm, hpath⟩ := h.opened frame hframe
  have hnum : n = m := hpaths (heq.symm.trans hpath)
  omega

/-- **A new segment** with its first frame: its row is inserted, and the row held before it has got
its end. -/
theorem register (hpaths : Function.Injective fun n => cStr (segmentPath n))
    (hnonempty : ∀ n, segmentPath n ≠ "") (hslot : v.slots channelId = some slot) {n : ℕ}
    (hn : v.opened ≤ n) {frame : WrittenFrame} (hpath : frame.path = cStr (segmentPath n))
    (hchannel : frame.channelId = channelId) {row : SegmentRow}
    (hfile : cStr row.filePath = cStr (segmentPath n)) (hrowChannel : row.channelId = channelId) :
    Tracked segmentPath
      { opened := n + 1
        frames := v.frames ++ [frame]
        lastId := v.lastId + 1
        calls :=
          (if slot.current < 0 then v.calls
            else v.calls ++ [IndexCall.updateSegmentEnd slot.current]) ++
            [IndexCall.insertSegment (v.lastId + 1) row]
        slots := Function.update v.slots channelId
          (some { path := segmentPath n, isOpen := true, current := v.lastId + 1 }) } := by
  have hfresh := h.fresh_of_opened hpaths hn
  -- the writer moves, the row that is held gets its end, and the frame and its row are there
  let moved : Slot := { path := segmentPath n, isOpen := true, current := slot.current }
  let unheld : Slot := { moved with current := -1 }
  have hmoved : Tracked segmentPath ({ v with opened := n + 1 }.put channelId (some moved)) :=
    h.move hpaths hnonempty hslot hn true
  have hslot₁ : ({ v with opened := n + 1 }.put channelId (some moved)).slots channelId =
      some moved := by rw [Ledger.put_slots, if_pos rfl]
  have hunheld : ∀ other ∈ some unheld, other = { moved with current := -1 } ∧
      ∀ frame ∈ v.frames, frame.path ≠ cStr moved.path := fun other hother =>
    ⟨(Option.some.inj hother).symm, hfresh⟩
  have hfinalized := hmoved.finalizeHeld hslot₁ hunheld
  have hslot₂ : (Ledger.put { ({ v with opened := n + 1 }.put channelId (some moved)) with
      calls := if moved.current < 0 then v.calls
        else v.calls ++ [IndexCall.updateSegmentEnd moved.current] } channelId
      (some unheld)).slots channelId = some unheld := by rw [Ledger.put_slots, if_pos rfl]
  have hstarted := hfinalized.start hpaths hslot₂ rfl (hnonempty n) rfl hfresh hpath hchannel
    hfile hrowChannel
  simpa only [Ledger.put, Ledger.begin, Function.update_idem] using hstarted

end Tracked

end LoongNvr.Storage
