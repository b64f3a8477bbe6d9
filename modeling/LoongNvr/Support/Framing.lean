import Mathlib.Data.List.Basic
import Mathlib.Tactic.TypeStar

/-!
# Support — Framing

Messages in a stream that comes in chunks.  A receiver appends each chunk to a buffer of limited
size, takes the messages that are complete off its front and keeps the rest.

* `Decoder`, `drain`, `feed`: one message, all that are there, and chunk after chunk.
* `Decodes`: what a decoder does with one message on the wire, whatever follows it, and with a part
  of it.
* `feed_iff`: messages that are all decoded so arrive in order, and leave nothing, exactly if every
  chunk fits in the buffer behind what it holds.
* `prefix_of_feed`: whatever comes behind them, messages decoded so arrive first.
-/

namespace Support

/-- Takes a message off the front of a buffer; `none` if none is complete. -/
structure Decoder (α β ε : Type*) where
  next : List α → Except ε (Option (β × List α))
  next_nil : next [] = .ok none
  shrinks : ∀ {buffer b rest}, next buffer = .ok (some (b, rest)) → rest.length < buffer.length

variable {α β ε : Type*}

namespace Decoder

/-- The messages at the front of a buffer, and what is left. -/
def drain (d : Decoder α β ε) (buffer : List α) : Except ε (List β × List α) :=
  match _h : d.next buffer with
  | .error e => .error e
  | .ok none => .ok ([], buffer)
  | .ok (some (b, rest)) => (d.drain rest).map fun out => (b :: out.1, out.2)
  termination_by buffer.length
  decreasing_by exact d.shrinks ‹_›

/-- Chunk after chunk into a buffer that holds `limit`. -/
def feed (d : Decoder α β ε) (limit : ℕ) (overflow : ε) :
    List α → List (List α) → Except ε (List β × List α)
  | buffer, [] => .ok ([], buffer)
  | buffer, chunk :: chunks =>
      if limit < (buffer ++ chunk).length then .error overflow
      else
        (d.drain (buffer ++ chunk)).bind fun (messages, rest) =>
          (d.feed limit overflow rest chunks).map fun (more, rest) => (messages ++ more, rest)

variable {d : Decoder α β ε} {limit : ℕ} {overflow : ε}

theorem drain_of_none {buffer : List α} (h : d.next buffer = .ok none) :
    d.drain buffer = .ok ([], buffer) := by
  rw [drain]
  split <;> simp_all

theorem drain_of_error {buffer : List α} {e : ε} (h : d.next buffer = .error e) :
    d.drain buffer = .error e := by
  rw [drain]
  split <;> simp_all

theorem drain_of_some {buffer rest : List α} {b : β} (h : d.next buffer = .ok (some (b, rest))) :
    d.drain buffer = (d.drain rest).map fun out => (b :: out.1, out.2) := by
  rw [drain]
  split <;> simp_all

end Decoder

open Decoder

theorem map_eq_ok_iff {γ : Type*} {f : α → γ} {x : Except ε α} {c : γ} :
    x.map f = .ok c ↔ ∃ a, x = .ok a ∧ f a = c := by
  cases x <;> simp [Except.map]

/-- A message on the wire is decoded as `m.2`, in a buffer that begins with it, and not from a part
of it. -/
structure Decodes (d : Decoder α β ε) (limit : ℕ) (m : List α × β) : Prop where
  complete : ∀ rest, (m.1 ++ rest).length ≤ limit → d.next (m.1 ++ rest) = .ok (some (m.2, rest))
  incomplete : ∀ part, part <+: m.1 → part ≠ m.1 → part.length ≤ limit → d.next part = .ok none

/-- The wire of messages one after another. -/
def wires (ms : List (List α × β)) : List α := ms.flatMap (·.1)

/-- What of the first `received` is left when all messages that are complete in it are taken. -/
def held : List ℕ → ℕ → ℕ
  | [], received => received
  | length :: lengths, received =>
      if length ≤ received then held lengths (received - length) else received

/-- Every chunk fits in a buffer behind what the buffer then holds. -/
def Fits (limit : ℕ) (lengths : List ℕ) : ℕ → List (List α) → Prop
  | _, [] => True
  | received, chunk :: chunks =>
      held lengths received + chunk.length ≤ limit ∧
        Fits limit lengths (received + chunk.length) chunks

instance instDecidableFits (limit : ℕ) (lengths : List ℕ) :
    ∀ (received : ℕ) (chunks : List (List α)), Decidable (Fits limit lengths received chunks)
  | _, [] => inferInstanceAs (Decidable True)
  | received, chunk :: chunks =>
      haveI := instDecidableFits limit lengths (received + chunk.length) chunks
      inferInstanceAs (Decidable (_ ≤ _ ∧ _))

/-- A buffer with no complete message: nothing, or a part of the first. -/
def Undone (buffer : List α) : List (List α × β) → Prop
  | [] => buffer = []
  | m :: _ => buffer <+: m.1 ∧ buffer ≠ m.1

section Laws

variable {d : Decoder α β ε} {limit : ℕ} {overflow : ε} {ms : List (List α × β)}

theorem Undone.length_lt {buffer : List α} {m : List α × β} (h : Undone buffer (m :: ms)) :
    buffer.length < m.1.length :=
  Nat.lt_of_le_of_ne h.1.length_le fun heq => h.2 (h.1.eq_of_length heq)

theorem undone_nil (hnonempty : ∀ m ∈ ms, m.1 ≠ []) : Undone [] ms := by
  cases ms with
  | nil => rfl
  | cons m ms => exact ⟨List.nil_prefix, (hnonempty m List.mem_cons_self).symm⟩

/-- Messages at the front of a buffer come off first. -/
theorem drain_wires_append (hms : ∀ m ∈ ms, Decodes d limit m) (rest : List α)
    (hfits : (wires ms ++ rest).length ≤ limit) :
    d.drain (wires ms ++ rest) =
      (d.drain rest).map fun out => (ms.map (·.2) ++ out.1, out.2) := by
  induction ms with
  | nil =>
      show d.drain rest = (d.drain rest).map id
      cases d.drain rest <;> rfl
  | cons m ms ih =>
      obtain ⟨hm, hms⟩ := List.forall_mem_cons.mp hms
      have hsplit : wires (m :: ms) ++ rest = m.1 ++ (wires ms ++ rest) := by
        rw [wires, List.flatMap_cons, List.append_assoc, ← wires]
      rw [hsplit] at hfits ⊢
      have hshort : (wires ms ++ rest).length ≤ limit := by
        rw [List.length_append] at hfits
        omega
      rw [drain_of_some (hm.complete _ hfits), ih hms hshort]
      cases d.drain rest <;> rfl

/-- What was received of a wire ends in a message, or behind them all. -/
theorem prefix_wires_append {p tail : List α} (h : p <+: wires ms ++ tail) :
    (∃ done m todo rest, ms = done ++ m :: todo ∧ p = wires done ++ rest ∧
      Undone rest (m :: todo)) ∨
    ∃ q, p = wires ms ++ q ∧ q <+: tail := by
  induction ms generalizing p with
  | nil => exact .inr ⟨p, rfl, h⟩
  | cons m ms ih =>
      have hsplit : wires (m :: ms) ++ tail = m.1 ++ (wires ms ++ tail) := by
        rw [wires, List.flatMap_cons, List.append_assoc, ← wires]
      rw [hsplit] at h
      rcases Nat.lt_or_ge p.length m.1.length with hlt | hle
      · have hpart := List.prefix_of_prefix_length_le h (List.prefix_append m.1 _) (Nat.le_of_lt hlt)
        exact .inl ⟨[], m, ms, p, rfl, rfl, hpart, fun heq => by simp [heq] at hlt⟩
      · -- the first message is complete
        obtain ⟨p, rfl⟩ := List.prefix_of_prefix_length_le (List.prefix_append m.1 _) h hle
        rw [List.prefix_append_right_inj] at h
        rcases ih h with ⟨done, m', todo, rest, rfl, rfl, hundone⟩ | ⟨q, rfl, hq⟩
        · exact .inl ⟨m :: done, m', todo, rest, rfl, by simp [wires], hundone⟩
        · exact .inr ⟨q, by simp [wires], hq⟩

theorem prefix_wires {p : List α} (h : p <+: wires ms) :
    ∃ done todo rest, ms = done ++ todo ∧ p = wires done ++ rest ∧ Undone rest todo := by
  rw [← List.append_nil (wires ms)] at h
  rcases prefix_wires_append h with ⟨done, m, todo, rest, hms, hp, hundone⟩ | ⟨q, hp, hq⟩
  · exact ⟨done, m :: todo, rest, hms, hp, hundone⟩
  · exact ⟨ms, [], q, by simp, hp, List.prefix_nil.mp hq⟩

/-- The complete messages come off, a part stays. -/
theorem drain_wires {done todo : List (List α × β)}
    (hms : ∀ m ∈ done ++ todo, Decodes d limit m) {rest : List α} (hrest : Undone rest todo)
    (hfits : (wires done ++ rest).length ≤ limit) :
    d.drain (wires done ++ rest) = .ok (done.map (·.2), rest) := by
  have hnone : d.next rest = .ok none := by
    cases todo with
    | nil => rw [hrest, d.next_nil]
    | cons m todo =>
        rw [List.length_append] at hfits
        exact (hms m (by simp)).incomplete rest hrest.1 hrest.2 (by omega)
  rw [drain_wires_append (fun m hm => hms m (List.mem_append_left _ hm)) rest hfits,
    drain_of_none hnone, Except.map, List.append_nil]

/-! ### The lengths -/

theorem held_undone {buffer : List α} (h : Undone buffer ms) :
    held (ms.map (·.1.length)) buffer.length = buffer.length := by
  cases ms with
  | nil => rfl
  | cons m ms => exact if_neg (Nat.not_le.mpr h.length_lt)

theorem held_wires (done todo : List (List α × β)) (n : ℕ) :
    held ((done ++ todo).map (·.1.length)) ((wires done).length + n) =
      held (todo.map (·.1.length)) n := by
  induction done with
  | nil => rw [wires, List.flatMap_nil, List.length_nil, Nat.zero_add, List.nil_append]
  | cons m done ih =>
      have hlength : (wires (m :: done)).length + n = m.1.length + ((wires done).length + n) := by
        rw [wires, List.flatMap_cons, List.length_append, ← wires, Nat.add_assoc]
      rw [List.cons_append, List.map_cons, held, hlength, if_pos (Nat.le_add_right _ _),
        Nat.add_sub_cancel_left, ih]

theorem fits_wires (done todo : List (List α × β)) (n : ℕ) (chunks : List (List α)) :
    Fits limit ((done ++ todo).map (·.1.length)) ((wires done).length + n) chunks ↔
      Fits limit (todo.map (·.1.length)) n chunks := by
  induction chunks generalizing n with
  | nil => exact Iff.rfl
  | cons chunk chunks ih => rw [Fits, Fits, held_wires, Nat.add_assoc, ih]

/-! ### Streams -/

/-- Where nothing is left to come, no message is incomplete. -/
theorem nil_of_undone {buffer tail : List α} (hundone : Undone buffer ms)
    (hcut : buffer = wires ms ++ tail) : ms = [] := by
  cases ms with
  | nil => rfl
  | cons m ms =>
      have hlength := congrArg List.length hcut
      have hlt := hundone.length_lt
      simp only [wires, List.flatMap_cons, List.length_append] at hlength
      omega

/-- What is not read yet is the rest of the stream. -/
theorem rest_of_wires {done todo : List (List α × β)} {part more tail : List α}
    (h : wires done ++ part ++ more = wires (done ++ todo) ++ tail) :
    part ++ more = wires todo ++ tail := by
  have hwires : wires (done ++ todo) = wires done ++ wires todo := List.flatMap_append
  rw [hwires, List.append_assoc, List.append_assoc] at h
  exact List.append_cancel_left h

/-- From a buffer with no complete message. -/
theorem feed_undone_iff (hms : ∀ m ∈ ms, Decodes d limit m) {buffer : List α}
    {chunks : List (List α)} (hundone : Undone buffer ms)
    (hcut : buffer ++ chunks.flatten = wires ms) :
    d.feed limit overflow buffer chunks = .ok (ms.map (·.2), []) ↔
      Fits limit (ms.map (·.1.length)) buffer.length chunks := by
  induction chunks generalizing buffer ms with
  | nil =>
      have hrest : buffer = wires ms ++ [] := by simpa using hcut
      obtain rfl := nil_of_undone hundone hrest
      exact iff_of_true (by rw [feed, hundone, List.map_nil]) trivial
  | cons chunk chunks ih =>
      rw [feed, Fits, held_undone hundone, ← List.length_append]
      by_cases hfits : (buffer ++ chunk).length ≤ limit
      · rw [if_neg (Nat.not_lt.mpr hfits), and_iff_right hfits]
        have hprefix : buffer ++ chunk <+: wires ms := ⟨chunks.flatten, by simpa using hcut⟩
        obtain ⟨done, todo, rest, rfl, hreceived, hrest⟩ := prefix_wires hprefix
        rw [List.flatten_cons, ← List.append_assoc, hreceived] at hcut
        have hmore : rest ++ chunks.flatten = wires todo :=
          (rest_of_wires (hcut.trans (List.append_nil _).symm)).trans (List.append_nil _)
        have htodo : ∀ m ∈ todo, Decodes d limit m := fun m hm =>
          hms m (List.mem_append_right _ hm)
        rw [hreceived, drain_wires hms hrest (hreceived ▸ hfits), List.length_append, fits_wires,
          ← ih htodo hrest hmore]
        simp only [Except.map, Except.bind]
        cases d.feed limit overflow rest chunks with
        | error e => exact iff_of_false (by simp) (by simp)
        | ok out => simp [Prod.ext_iff]
      · rw [if_pos (Nat.not_le.mp hfits)]
        exact iff_of_false (by simp) fun h => hfits h.1

/-- **Messages in chunks** arrive one by one, and leave nothing, exactly if every chunk fits in the
buffer behind what it holds. -/
theorem feed_iff (hms : ∀ m ∈ ms, Decodes d limit m) (hnonempty : ∀ m ∈ ms, m.1 ≠ [])
    {chunks : List (List α)} (hcut : chunks.flatten = wires ms) :
    d.feed limit overflow [] chunks = .ok (ms.map (·.2), []) ↔
      Fits limit (ms.map (·.1.length)) 0 chunks :=
  feed_undone_iff hms (undone_nil hnonempty) hcut

/-- **What arrives first** does not depend on what comes behind it. -/
theorem prefix_of_feed (hms : ∀ m ∈ ms, Decodes d limit m) {buffer tail rest : List α}
    {chunks : List (List α)} {out : List β} (hundone : Undone buffer ms)
    (hcut : buffer ++ chunks.flatten = wires ms ++ tail)
    (hfeed : d.feed limit overflow buffer chunks = .ok (out, rest)) : ms.map (·.2) <+: out := by
  induction chunks generalizing buffer ms out rest with
  | nil =>
      obtain rfl := nil_of_undone hundone ((List.append_nil buffer).symm.trans hcut)
      exact List.nil_prefix
  | cons chunk chunks ih =>
      rw [feed] at hfeed
      split at hfeed
      · exact absurd hfeed (by simp)
      · rename_i hfits
        have hprefix : buffer ++ chunk <+: wires ms ++ tail := ⟨chunks.flatten, by simpa using hcut⟩
        rw [List.flatten_cons, ← List.append_assoc] at hcut
        rcases prefix_wires_append hprefix with
            ⟨done, m, todo, part, rfl, hreceived, hpart⟩ | ⟨q, hreceived, -⟩
        · -- the first messages are complete, one is not
          rw [hreceived] at hcut hfeed hfits
          have hmore : part ++ chunks.flatten = wires (m :: todo) ++ tail := rest_of_wires hcut
          rw [drain_wires hms hpart (Nat.not_lt.mp hfits)] at hfeed
          obtain ⟨⟨more, rest'⟩, hmore', hout⟩ := map_eq_ok_iff.mp hfeed
          obtain rfl : done.map (·.2) ++ more = out := congrArg Prod.fst hout
          rw [List.map_append, List.prefix_append_right_inj]
          exact ih (fun m hm => hms m (List.mem_append_right _ hm)) hpart hmore hmore'
        · -- all of them are complete
          rw [hreceived] at hfeed hfits
          rw [drain_wires_append hms q (Nat.not_lt.mp hfits)] at hfeed
          cases hq : d.drain q with
          | error e =>
              rw [hq] at hfeed
              exact absurd hfeed (by simp [Except.map, Except.bind])
          | ok first =>
              rw [hq] at hfeed
              obtain ⟨⟨more, rest'⟩, -, hout⟩ := map_eq_ok_iff.mp hfeed
              obtain rfl : ms.map (·.2) ++ first.1 ++ more = out := congrArg Prod.fst hout
              rw [List.append_assoc]
              exact List.prefix_append _ _

end Laws

end Support
