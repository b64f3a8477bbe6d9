import LoongNvr.Support.Filling
import Mathlib.Data.List.Sort

/-!
# Overlay — ChannelCompositor

The wall on which the pictures of several channels are shown: which channel each cell of the grid
shows.  Channels are assigned to cells, and those with a picture and no cell fill the other cells.

* `CompositorCall.run`: a call of the compositor.
* `getCellChannelOrder`: the channel of each cell, −1 where it has none.
* `Waiting`: a channel with a valid frame that no cell of the grid is assigned to.
* `ShowsEach`: what is shown where.
* `wall_shows_each`: so it is after any calls, and a channel that was removed is not shown before
  it is updated or assigned again.
-/

namespace LoongNvr.Overlay
open Support

/-- A layout of the grid; the enumerators are numbers of cells. -/
structure GridLayout where
  cells : ℕ

namespace GridLayout

def k1x1 : GridLayout := ⟨1⟩
def k2x2 : GridLayout := ⟨4⟩
def k3x3 : GridLayout := ⟨9⟩
def k4x4 : GridLayout := ⟨16⟩
def k8x8 : GridLayout := ⟨64⟩

end GridLayout

/-- Information about a single channel's frame for compositing. -/
structure CompositorInput where
  channelId : ℤ := -1
  data : Option (List UInt8) := none
  width : ℤ := 0
  height : ℤ := 0
  stride : ℤ := 0

/-- A frame that is kept. -/
structure ChannelFrame where
  channelId : ℤ := -1
  data : List UInt8 := []
  width : ℤ := 0
  height : ℤ := 0
  stride : ℤ := 0
  valid : Bool := false

/-- `ChannelCompositor`, its output size apart. -/
structure ChannelCompositor where
  layout : GridLayout := .k2x2
  channelFrames : AList fun _ : ℤ => ChannelFrame := ∅
  /-- From the index of a cell to the channel it is assigned to. -/
  cellAssignments : AList fun _ : ℤ => ℤ := ∅

/-- A map without the keys of a value. -/
def eraseValue (m : AList fun _ : ℤ => ℤ) (v : ℤ) : AList fun _ : ℤ => ℤ where
  entries := m.entries.filter (·.2 ≠ v)
  nodupKeys := m.nodupKeys.sublist List.filter_sublist

namespace ChannelCompositor

variable (s : ChannelCompositor)

def cellCount : ℕ := s.layout.cells

def setLayout (layout : GridLayout) : ChannelCompositor := { s with layout := layout }

/-- `UpdateChannel`; the buffer has at least as many bytes as are copied. -/
def updateChannel (input : CompositorInput) : ChannelCompositor :=
  match input.data with
  | none => s
  | some bytes =>
      if input.channelId < 0 ∨ input.width ≤ 0 ∨ input.height ≤ 0 then s
      else
        let stride := if input.stride > 0 then input.stride else input.width * 3
        { s with
          channelFrames := s.channelFrames.insert input.channelId
            { channelId := input.channelId
              data := bytes.take (stride * input.height).toNat
              width := input.width
              height := input.height
              stride := stride
              valid := true } }

def removeChannel (channelId : ℤ) : ChannelCompositor :=
  { s with
    channelFrames := s.channelFrames.erase channelId
    cellAssignments := eraseValue s.cellAssignments channelId }

def assignCell (channelId cellIndex : ℤ) : ChannelCompositor :=
  if cellIndex < 0 ∨ cellIndex ≥ s.cellCount then s
  else { s with cellAssignments := s.cellAssignments.insert cellIndex channelId }

def clearAssignments : ChannelCompositor := { s with cellAssignments := ∅ }

/-- The cells with the channels they are assigned to. -/
def assignedCells : List ℤ := scatter s.cellAssignments (List.replicate s.cellCount (-1))

/-- The channels that the other cells are filled with. -/
def unassigned : List ℤ :=
  let assigned := s.assignedCells.filter (0 ≤ ·)
  ((s.channelFrames.entries.filter fun e => e.2.valid ∧ e.1 ∉ assigned).map (·.1)).insertionSort
    (· ≤ ·)

/-- `GetCellChannelOrder` -/
def getCellChannelOrder : List ℤ := fill (· < 0) s.assignedCells s.unassigned

end ChannelCompositor

/-- A call of the compositor. -/
inductive CompositorCall
  | updateChannel (input : CompositorInput)
  | removeChannel (channelId : ℤ)
  | assignCell (channelId cellIndex : ℤ)
  | clearAssignments
  | setLayout (layout : GridLayout)

namespace CompositorCall

def run (s : ChannelCompositor) : CompositorCall → ChannelCompositor
  | updateChannel input => s.updateChannel input
  | removeChannel channelId => s.removeChannel channelId
  | assignCell channelId cellIndex => s.assignCell channelId cellIndex
  | clearAssignments => s.clearAssignments
  | setLayout layout => s.setLayout layout

/-- The call gives this channel a frame or a cell, if it does anything. -/
def Gives (channelId : ℤ) : CompositorCall → Prop
  | updateChannel input => input.channelId = channelId
  | assignCell id _ => id = channelId
  | _ => False

end CompositorCall

/-- A compositor after some calls. -/
def composed (calls : List CompositorCall) : ChannelCompositor :=
  calls.foldl CompositorCall.run {}

namespace ChannelCompositor

variable {s : ChannelCompositor} {channelId : ℤ}

/-- A channel with a valid frame and no assigned cell in the grid. -/
def Waiting (s : ChannelCompositor) (channelId : ℤ) : Prop :=
  (∃ frame, s.channelFrames.lookup channelId = some frame ∧ frame.valid) ∧
    ∀ i : ℕ, i < s.cellCount → s.cellAssignments.lookup (i : ℤ) ≠ some channelId

/-- What the cells show.  Assignments are honoured; a channel that waits is shown at most once, in a
cell without an assignment, after channels with smaller ids in all such cells before it and with all
channels that wait and have smaller ids; and a cell is empty only if all that wait are shown. -/
structure ShowsEach (s : ChannelCompositor) (order : List ℤ) : Prop where
  length_eq : order.length = s.cellCount
  honoured : ∀ (i : ℕ) (ch : ℤ), i < s.cellCount → s.cellAssignments.lookup (i : ℤ) = some ch →
    order[i]? = some ch
  once : ∀ (ch : ℤ) (i j : ℕ), s.Waiting ch → order[i]? = some ch → order[j]? = some ch → i = j
  unassigned : ∀ (ch : ℤ) (i : ℕ), s.Waiting ch → order[i]? = some ch →
    s.cellAssignments.lookup (i : ℤ) = none
  increasing : ∀ (ch : ℤ) (i j : ℕ), s.Waiting ch → order[j]? = some ch → i < j →
    s.cellAssignments.lookup (i : ℤ) = none → ∃ ch', s.Waiting ch' ∧ order[i]? = some ch' ∧ ch' < ch
  smallest : ∀ ch ch', s.Waiting ch → s.Waiting ch' → ch' < ch → ch ∈ order → ch' ∈ order
  empty : -1 ∈ order → ∀ ch, s.Waiting ch → ch ∈ order

/-! ### The cells of one state -/

/-- Only channels have frames and cells. -/
structure Named (s : ChannelCompositor) : Prop where
  frames : ∀ {ch frame}, s.channelFrames.lookup ch = some frame → 0 ≤ ch
  cells : ∀ {cell ch}, s.cellAssignments.lookup cell = some ch → 0 ≤ ch

theorem getElem?_assignedCells (s : ChannelCompositor) {i : ℕ} (hi : i < s.cellCount) :
    s.assignedCells[i]? = some ((s.cellAssignments.lookup (i : ℤ)).getD (-1)) := by
  rw [assignedCells, getElem?_scatter, List.getElem?_replicate_of_lt hi]
  rfl

theorem length_assignedCells (s : ChannelCompositor) : s.assignedCells.length = s.cellCount := by
  rw [assignedCells, length_scatter, List.length_replicate]

theorem length_order (s : ChannelCompositor) : s.getCellChannelOrder.length = s.cellCount := by
  rw [getCellChannelOrder, length_fill, length_assignedCells]

theorem lt_of_order {i : ℕ} (h : s.getCellChannelOrder[i]? = some channelId) : i < s.cellCount := by
  obtain ⟨hi, -⟩ := List.getElem?_eq_some_iff.mp h
  rwa [length_order] at hi

theorem mem_assignedCells (hch : 0 ≤ channelId) :
    channelId ∈ s.assignedCells ↔
      ∃ i : ℕ, i < s.cellCount ∧ s.cellAssignments.lookup (i : ℤ) = some channelId := by
  rw [List.mem_iff_getElem?]
  constructor
  · rintro ⟨i, hi⟩
    have hlt : i < s.cellCount := by
      obtain ⟨hlt, -⟩ := List.getElem?_eq_some_iff.mp hi
      rwa [length_assignedCells] at hlt
    rw [getElem?_assignedCells s hlt, Option.some_inj] at hi
    refine ⟨i, hlt, ?_⟩
    cases hcell : s.cellAssignments.lookup (i : ℤ) with
    | none =>
        rw [hcell, Option.getD_none] at hi
        omega
    | some ch =>
        rw [hcell, Option.getD_some] at hi
        rw [hi]
  · rintro ⟨i, hi, hcell⟩
    refine ⟨i, ?_⟩
    rw [getElem?_assignedCells s hi, hcell, Option.getD_some]

/-- **The channels that fill the cells** are those that wait. -/
theorem mem_unassigned (h : s.Named) : channelId ∈ s.unassigned ↔ s.Waiting channelId := by
  have hassigned : 0 ≤ channelId → (channelId ∉ s.assignedCells.filter (0 ≤ ·) ↔
      ∀ i : ℕ, i < s.cellCount → s.cellAssignments.lookup (i : ℤ) ≠ some channelId) := by
    intro hch
    rw [List.mem_filter, mem_assignedCells hch]
    simp [hch]
  rw [unassigned, List.mem_insertionSort, List.mem_map, Waiting]
  constructor
  · rintro ⟨⟨ch, frame⟩, he, rfl⟩
    obtain ⟨hmem, htest⟩ := List.mem_filter.mp he
    obtain ⟨hvalid, hfree⟩ := of_decide_eq_true htest
    have hframe : s.channelFrames.lookup ch = some frame := AList.mem_lookup_iff.mpr hmem
    exact ⟨⟨frame, hframe, hvalid⟩, (hassigned (h.frames hframe)).mp hfree⟩
  · rintro ⟨⟨frame, hframe, hvalid⟩, hfree⟩
    refine ⟨⟨channelId, frame⟩, List.mem_filter.mpr ⟨AList.mem_lookup_iff.mp hframe, ?_⟩, rfl⟩
    exact decide_eq_true ⟨hvalid, (hassigned (h.frames hframe)).mpr hfree⟩

theorem Waiting.nonneg (hwait : s.Waiting channelId) (h : s.Named) : 0 ≤ channelId := by
  obtain ⟨⟨frame, hframe, -⟩, -⟩ := hwait
  exact h.frames hframe

theorem pairwise_unassigned (s : ChannelCompositor) : s.unassigned.Pairwise (· < ·) := by
  have hnodup : s.unassigned.Nodup := by
    refine (List.perm_insertionSort _ _).nodup_iff.mpr ?_
    exact List.Nodup.sublist (List.filter_sublist.map Sigma.fst) s.channelFrames.nodupKeys
  exact (List.pairwise_insertionSort _ _).imp₂ (fun _ _ hle hne => lt_of_le_of_ne hle hne) hnodup

theorem unassigned_lt {i j : ℕ} {a b : ℤ} (ha : s.unassigned[i]? = some a)
    (hb : s.unassigned[j]? = some b) (h : i < j) : a < b := by
  obtain ⟨hi, rfl⟩ := List.getElem?_eq_some_iff.mp ha
  obtain ⟨hj, rfl⟩ := List.getElem?_eq_some_iff.mp hb
  exact List.pairwise_iff_getElem.mp s.pairwise_unassigned i j hi hj h

theorem index_of_unassigned_lt {i j : ℕ} {a b : ℤ} (ha : s.unassigned[i]? = some a)
    (hb : s.unassigned[j]? = some b) (h : a < b) : i < j := by
  rcases lt_trichotomy i j with hlt | rfl | hgt
  · exact hlt
  · exact absurd (Option.some.inj (ha.symm.trans hb)) h.ne
  · exact absurd (unassigned_lt hb ha hgt) h.asymm

/-- How many cells without an assignment come before this one. -/
def freeRank (s : ChannelCompositor) (i : ℕ) : ℕ := rank (· < 0) s.assignedCells i

theorem order_of_assigned (h : s.Named) {i : ℕ} (hi : i < s.cellCount)
    (hcell : s.cellAssignments.lookup (i : ℤ) = some channelId) :
    s.getCellChannelOrder[i]? = some channelId := by
  have hnonneg : ¬ channelId < 0 := not_lt.mpr (h.cells hcell)
  rw [getCellChannelOrder, getElem?_fill, getElem?_assignedCells s hi, hcell]
  simp [hnonneg]

theorem order_of_free (s : ChannelCompositor) {i : ℕ} (hi : i < s.cellCount)
    (hcell : s.cellAssignments.lookup (i : ℤ) = none) :
    s.getCellChannelOrder[i]? = some ((s.unassigned[s.freeRank i]?).getD (-1)) := by
  rw [getCellChannelOrder, getElem?_fill, getElem?_assignedCells s hi, hcell]
  rfl

theorem getElem?_assignedCells_free {i : ℕ} (hi : i < s.cellCount)
    (hcell : s.cellAssignments.lookup (i : ℤ) = none) : s.assignedCells[i]? = some (-1) := by
  rw [getElem?_assignedCells s hi, hcell]
  rfl

/-- A cell that is found free has no assignment. -/
theorem free_of_neg (h : s.Named) {i : ℕ} {place : ℤ} (hplace : s.assignedCells[i]? = some place)
    (hneg : place < 0) : i < s.cellCount ∧ s.cellAssignments.lookup (i : ℤ) = none := by
  obtain ⟨hlt, -⟩ := List.getElem?_eq_some_iff.mp hplace
  rw [length_assignedCells] at hlt
  refine ⟨hlt, ?_⟩
  rw [getElem?_assignedCells s hlt, Option.some_inj] at hplace
  cases hcell : s.cellAssignments.lookup (i : ℤ) with
  | none => rfl
  | some ch =>
      rw [hcell, Option.getD_some] at hplace
      exact absurd (h.cells hcell) (not_le.mpr (hplace ▸ hneg))

/-- Where a channel that waits is shown. -/
theorem shown_iff (h : s.Named) (hwait : s.Waiting channelId) (i : ℕ) :
    s.getCellChannelOrder[i]? = some channelId ↔
      i < s.cellCount ∧ s.cellAssignments.lookup (i : ℤ) = none ∧
        s.unassigned[s.freeRank i]? = some channelId := by
  constructor
  · intro hshown
    have hi := lt_of_order hshown
    refine ⟨hi, ?_⟩
    cases hcell : s.cellAssignments.lookup (i : ℤ) with
    | some ch =>
        rw [order_of_assigned h hi hcell] at hshown
        exact absurd (hcell.trans hshown) (hwait.2 i hi)
    | none =>
        refine ⟨rfl, ?_⟩
        rw [order_of_free s hi hcell, Option.some_inj] at hshown
        cases hfill : s.unassigned[s.freeRank i]? with
        | some ch => rw [← hshown, hfill, Option.getD_some]
        | none =>
            rw [hfill, Option.getD_none] at hshown
            have := hwait.nonneg h
            omega
  · rintro ⟨hi, hcell, hfill⟩
    rw [order_of_free s hi hcell, hfill, Option.getD_some]

/-- Channels are shown whose turn comes before a cell. -/
theorem shown_of_lt_freeRank (h : s.Named) (hwait : s.Waiting channelId) {i k : ℕ}
    (hturn : s.unassigned[k]? = some channelId) (hk : k < s.freeRank i) :
    channelId ∈ s.getCellChannelOrder := by
  obtain ⟨j, place, -, hplace, hneg, hrank⟩ := exists_rank_eq hk
  obtain ⟨hj, hcell⟩ := free_of_neg h hplace (of_decide_eq_true hneg)
  refine List.mem_iff_getElem?.mpr ⟨j, (shown_iff h hwait j).mpr ⟨hj, hcell, ?_⟩⟩
  rw [freeRank, hrank, hturn]

/-- **What one state shows.** -/
theorem Named.showsEach (h : s.Named) : s.ShowsEach s.getCellChannelOrder where
  length_eq := length_order s
  honoured _ _ hi hcell := order_of_assigned h hi hcell
  unassigned _ i hwait hshown := ((shown_iff h hwait i).mp hshown).2.1
  once ch i j hwait hi hj := by
    obtain ⟨hlti, hcelli, hturni⟩ := (shown_iff h hwait i).mp hi
    obtain ⟨hltj, hcellj, hturnj⟩ := (shown_iff h hwait j).mp hj
    have hrank : s.freeRank i = s.freeRank j := by
      rcases lt_trichotomy (s.freeRank i) (s.freeRank j) with hlt | heq | hgt
      · exact absurd (unassigned_lt hturni hturnj hlt) (lt_irrefl ch)
      · exact heq
      · exact absurd (unassigned_lt hturnj hturni hgt) (lt_irrefl ch)
    exact eq_of_rank_eq (getElem?_assignedCells_free hlti hcelli)
      (getElem?_assignedCells_free hltj hcellj) rfl rfl hrank
  increasing ch i j hwait hj hij hcell := by
    obtain ⟨hltj, -, hturn⟩ := (shown_iff h hwait j).mp hj
    have hlti := hij.trans hltj
    have hrank : s.freeRank i < s.freeRank j :=
      rank_lt_rank (getElem?_assignedCells_free hlti hcell) rfl hij
    obtain ⟨hlen, -⟩ := List.getElem?_eq_some_iff.mp hturn
    obtain ⟨ch', hturn'⟩ : ∃ ch', s.unassigned[s.freeRank i]? = some ch' :=
      ⟨_, List.getElem?_eq_getElem (hrank.trans hlen)⟩
    have hwait' : s.Waiting ch' := (mem_unassigned h).mp (List.mem_of_getElem? hturn')
    exact ⟨ch', hwait', (shown_iff h hwait' i).mpr ⟨hlti, hcell, hturn'⟩,
      unassigned_lt hturn' hturn hrank⟩
  smallest ch ch' hwait hwait' hlt hmem := by
    obtain ⟨i, hi⟩ := List.mem_iff_getElem?.mp hmem
    obtain ⟨-, -, hturn⟩ := (shown_iff h hwait i).mp hi
    obtain ⟨k, hturn'⟩ := List.mem_iff_getElem?.mp ((mem_unassigned h).mpr hwait')
    exact shown_of_lt_freeRank h hwait' hturn' (index_of_unassigned_lt hturn' hturn hlt)
  empty hmem ch hwait := by
    obtain ⟨i, hi⟩ := List.mem_iff_getElem?.mp hmem
    have hlt := lt_of_order hi
    have hcell : s.cellAssignments.lookup (i : ℤ) = none := by
      cases hcell : s.cellAssignments.lookup (i : ℤ) with
      | none => rfl
      | some ch =>
          rw [order_of_assigned h hlt hcell, Option.some_inj] at hi
          have := h.cells hcell
          omega
    -- No channel is left for the cell, so the turns of all come before it.
    have hnone : s.unassigned.length ≤ s.freeRank i := by
      by_contra hless
      rw [order_of_free s hlt hcell, Option.some_inj,
        List.getElem?_eq_getElem (not_le.mp hless), Option.getD_some] at hi
      have := ((mem_unassigned h).mp (List.getElem_mem (not_le.mp hless))).nonneg h
      omega
    obtain ⟨k, hturn⟩ := List.mem_iff_getElem?.mp ((mem_unassigned h).mpr hwait)
    obtain ⟨hk, -⟩ := List.getElem?_eq_some_iff.mp hturn
    exact shown_of_lt_freeRank h hwait hturn (hk.trans_le hnone)

/-- What a cell can show. -/
theorem cases_of_mem_order (h : s.Named) (hmem : channelId ∈ s.getCellChannelOrder) :
    channelId = -1 ∨ (∃ cell, s.cellAssignments.lookup cell = some channelId) ∨
      s.Waiting channelId := by
  obtain ⟨i, hi⟩ := List.mem_iff_getElem?.mp hmem
  have hlt := lt_of_order hi
  cases hcell : s.cellAssignments.lookup (i : ℤ) with
  | some ch =>
      rw [order_of_assigned h hlt hcell, Option.some_inj] at hi
      exact .inr (.inl ⟨i, hi ▸ hcell⟩)
  | none =>
      rw [order_of_free s hlt hcell, Option.some_inj] at hi
      cases hturn : s.unassigned[s.freeRank i]? with
      | none =>
          rw [hturn, Option.getD_none] at hi
          exact .inl hi.symm
      | some ch =>
          rw [hturn, Option.getD_some] at hi
          exact .inr (.inr ((mem_unassigned h).mp (hi ▸ List.mem_of_getElem? hturn)))

/-! ### Runs -/

theorem lookup_eraseValue {m : AList fun _ : ℤ => ℤ} {v cell ch : ℤ} :
    (eraseValue m v).lookup cell = some ch ↔ m.lookup cell = some ch ∧ ch ≠ v := by
  have hentries : (eraseValue m v).entries = m.entries.filter (·.2 ≠ v) := rfl
  rw [← Option.mem_def, ← Option.mem_def, AList.mem_lookup_iff, AList.mem_lookup_iff, hentries,
    List.mem_filter, decide_eq_true_eq]

/-- The calls leave other channels' frames alone, and set only frames of their channel. -/
theorem updateChannel_cases (s : ChannelCompositor) (input : CompositorInput) :
    s.updateChannel input = s ∨ 0 ≤ input.channelId ∧ ∃ frame : ChannelFrame,
      s.updateChannel input =
        { s with channelFrames := s.channelFrames.insert input.channelId frame } := by
  unfold updateChannel
  cases input.data with
  | none => exact .inl rfl
  | some bytes =>
      by_cases hskip : input.channelId < 0 ∨ input.width ≤ 0 ∨ input.height ≤ 0
      · exact .inl (if_pos hskip)
      · simp only [not_or, not_lt] at hskip
        exact .inr ⟨hskip.1, _, if_neg (by simpa using hskip)⟩

theorem assignCell_cases (s : ChannelCompositor) (channelId cellIndex : ℤ) :
    s.assignCell channelId cellIndex = s ∨ s.assignCell channelId cellIndex =
      { s with cellAssignments := s.cellAssignments.insert cellIndex channelId } := by
  unfold assignCell
  split
  · exact .inl rfl
  · exact .inr rfl

theorem named_insertFrame (h : s.Named) (hch : 0 ≤ channelId) (frame : ChannelFrame) :
    Named { s with channelFrames := s.channelFrames.insert channelId frame } where
  frames := by
    intro ch frame' hframe
    rcases eq_or_ne ch channelId with rfl | hne
    · exact hch
    · rw [AList.lookup_insert_ne hne] at hframe
      exact h.frames hframe
  cells := h.cells

theorem named_insertCell (h : s.Named) (hch : 0 ≤ channelId) (cell : ℤ) :
    Named { s with cellAssignments := s.cellAssignments.insert cell channelId } where
  frames := h.frames
  cells := by
    intro cell' ch hcell
    rcases eq_or_ne cell' cell with rfl | hne
    · rw [AList.lookup_insert, Option.some_inj] at hcell
      exact hcell ▸ hch
    · rw [AList.lookup_insert_ne hne] at hcell
      exact h.cells hcell

/-- **A step**: channels keep having names that are not negative. -/
theorem Named.step (h : s.Named) {call : CompositorCall}
    (hid : ∀ ch cell, call = .assignCell ch cell → 0 ≤ ch) : (call.run s).Named := by
  cases call with
  | updateChannel input =>
      rcases s.updateChannel_cases input with heq | ⟨hch, frame, heq⟩
      · rwa [CompositorCall.run, heq]
      · rw [CompositorCall.run, heq]
        exact named_insertFrame h hch frame
  | removeChannel ch =>
      refine ⟨fun {ch' frame} hframe => ?_, fun hcell => h.cells (lookup_eraseValue.mp hcell).1⟩
      rcases eq_or_ne ch' ch with rfl | hne
      · rw [CompositorCall.run, removeChannel, AList.lookup_erase] at hframe
        cases hframe
      · rw [CompositorCall.run, removeChannel, AList.lookup_erase_ne hne] at hframe
        exact h.frames hframe
  | assignCell ch cell =>
      rcases s.assignCell_cases ch cell with heq | heq
      · rwa [CompositorCall.run, heq]
      · rw [CompositorCall.run, heq]
        exact named_insertCell h (hid ch cell rfl) cell
  | clearAssignments =>
      refine ⟨h.frames, fun {cell ch} hcell => ?_⟩
      rw [CompositorCall.run, clearAssignments, AList.lookup_empty] at hcell
      cases hcell
  | setLayout layout => exact ⟨h.frames, h.cells⟩

theorem named_new : Named {} where
  frames := by
    intro ch frame hframe
    rw [AList.lookup_empty] at hframe
    cases hframe
  cells := by
    intro cell ch hcell
    rw [AList.lookup_empty] at hcell
    cases hcell

theorem named_run (h : s.Named) {calls : List CompositorCall}
    (hids : ∀ ch cell, .assignCell ch cell ∈ calls → 0 ≤ ch) :
    (calls.foldl CompositorCall.run s).Named := by
  induction calls generalizing s with
  | nil => exact h
  | cons call calls ih =>
      refine ih (h.step ?_) fun ch cell hmem => hids ch cell (List.mem_cons_of_mem _ hmem)
      rintro ch cell rfl
      exact hids ch cell List.mem_cons_self

/-- A channel without a frame or a cell, in the grid or outside. -/
structure Absent (s : ChannelCompositor) (channelId : ℤ) : Prop where
  frame : s.channelFrames.lookup channelId = none
  cell : ∀ cell, s.cellAssignments.lookup cell ≠ some channelId

theorem absent_removeChannel (s : ChannelCompositor) (channelId : ℤ) :
    (s.removeChannel channelId).Absent channelId where
  frame := AList.lookup_erase _ _
  cell _ hcell := (lookup_eraseValue.mp hcell).2 rfl

/-- **A step**: only a call that gives it a frame or a cell brings a channel back. -/
theorem Absent.step (h : s.Absent channelId) {call : CompositorCall}
    (hgives : ¬ call.Gives channelId) : (call.run s).Absent channelId := by
  cases call with
  | updateChannel input =>
      rcases s.updateChannel_cases input with heq | ⟨-, frame, heq⟩
      · rwa [CompositorCall.run, heq]
      · rw [CompositorCall.run, heq]
        exact ⟨(AList.lookup_insert_ne (Ne.symm hgives)).trans h.frame, h.cell⟩
  | removeChannel ch =>
      refine ⟨?_, fun cell hcell => h.cell cell (lookup_eraseValue.mp hcell).1⟩
      rcases eq_or_ne channelId ch with rfl | hne
      · exact AList.lookup_erase _ _
      · exact (AList.lookup_erase_ne hne).trans h.frame
  | assignCell ch cell =>
      rcases s.assignCell_cases ch cell with heq | heq
      · rwa [CompositorCall.run, heq]
      · rw [CompositorCall.run, heq]
        refine ⟨h.frame, fun cell' hcell => ?_⟩
        rcases eq_or_ne cell' cell with rfl | hne
        · rw [AList.lookup_insert, Option.some_inj] at hcell
          exact hgives hcell
        · rw [AList.lookup_insert_ne hne] at hcell
          exact h.cell cell' hcell
  | clearAssignments =>
      refine ⟨h.frame, fun cell hcell => ?_⟩
      rw [CompositorCall.run, clearAssignments, AList.lookup_empty] at hcell
      cases hcell
  | setLayout layout => exact ⟨h.frame, h.cell⟩

theorem Absent.run (h : s.Absent channelId) {calls : List CompositorCall}
    (hgives : ∀ call ∈ calls, ¬ call.Gives channelId) :
    (calls.foldl CompositorCall.run s).Absent channelId := by
  induction calls generalizing s with
  | nil => exact h
  | cons call calls ih =>
      obtain ⟨hcall, hcalls⟩ := List.forall_mem_cons.mp hgives
      exact ih (h.step hcall) hcalls

theorem Absent.not_mem_order (h : s.Absent channelId) (hnamed : s.Named) (hch : 0 ≤ channelId) :
    channelId ∉ s.getCellChannelOrder := by
  intro hmem
  rcases cases_of_mem_order hnamed hmem with heq | ⟨cell, hcell⟩ | ⟨⟨frame, hframe, -⟩, -⟩
  · omega
  · exact h.cell cell hcell
  · rw [h.frame] at hframe
    cases hframe

end ChannelCompositor

/-- **The wall.**  After any calls with channels whose ids are not negative each channel is shown
that can be, and one that was removed is not shown before a call gives it a frame or a cell. -/
theorem wall_shows_each (calls : List CompositorCall)
    (hids : ∀ ch cell, .assignCell ch cell ∈ calls → 0 ≤ ch) :
    (composed calls).ShowsEach (composed calls).getCellChannelOrder ∧
      ∀ before channelId after, calls = before ++ .removeChannel channelId :: after →
        0 ≤ channelId → (∀ call ∈ after, ¬ call.Gives channelId) →
        channelId ∉ (composed calls).getCellChannelOrder := by
  have hnamed : (composed calls).Named :=
    ChannelCompositor.named_run ChannelCompositor.named_new hids
  refine ⟨hnamed.showsEach, ?_⟩
  rintro before channelId after rfl hch hgives
  have habsent : (composed (before ++ .removeChannel channelId :: after)).Absent channelId := by
    rw [composed, List.foldl_append, List.foldl_cons]
    exact (ChannelCompositor.absent_removeChannel _ channelId).run hgives
  exact habsent.not_mem_order hnamed hch

/-- A picture of one black pixel. -/
def blackPixel (channelId : ℤ) : CompositorInput where
  channelId := channelId
  data := some [0, 0, 0]
  width := 1
  height := 1

/-- Channel 3 has a cell; channel 5, which had one outside the grid too, is removed. -/
def fourChannels : List CompositorCall :=
  [.setLayout .k3x3, .assignCell 3 2, .assignCell 5 8, .setLayout .k2x2,
    .updateChannel (blackPixel 7), .updateChannel (blackPixel 5), .updateChannel (blackPixel 1),
    .removeChannel 5]

example : (composed fourChannels).getCellChannelOrder = [1, 7, 3, -1] := by decide

theorem fourChannels_shown : (composed fourChannels).ShowsEach [1, 7, 3, -1] :=
  (wall_shows_each fourChannels fun ch cell h => by
    simp only [fourChannels, List.mem_cons, CompositorCall.assignCell.injEq, reduceCtorEq,
      List.not_mem_nil, false_or, or_false] at h
    omega).1

end LoongNvr.Overlay
