import LoongNvr.Core.Types
import LoongNvr.Support.Runs
import LoongNvr.Support.Window
import Mathlib.Data.List.Induction
import Mathlib.Logic.Function.Basic

/-!
# Network — RateLimit

`HttpServer::CheckRateLimit`, which counts the requests of an address in windows of sixty seconds.
A window begins with the first request that comes sixty seconds or more after the beginning of the
last.  Times are ticks of the steady clock, nanoseconds.

* `checkEntry`, `checkRateLimit`: the check, on one entry and on the table.
* `RateBounded`: at most 120 requests of an address pass in any sixty seconds, and the answers to
  an address are its own.
* `FitsWindow`: what the window that goes on, or begins, makes pass with what the last one did.
* `rateBounded_iff`: the rate is bounded exactly when that never is too much.
-/

namespace LoongNvr.Network
open Support LoongNvr.Core

/-- Rate limiter entry for a single address. -/
structure RateLimitEntry where
  requestCount : ℤ := 0
  windowStart : ℤ := 0
  deriving DecidableEq, Repr

/-- `rate_limits_` -/
abbrev RateLimits := String → Option RateLimitEntry

def kRateLimitMaxRequests : ℕ := 120

def kRateLimitWindowSeconds : ℤ := 60

/-- `std::chrono::seconds` in ticks. -/
def seconds (n : ℤ) : ℤ := n * 1000000000

/-- `duration_cast<std::chrono::seconds>`, which drops what is less than a second. -/
def toSeconds (ticks : ℤ) : ℤ := ticks.tdiv 1000000000

/-- A request that is turned away, and the header that says for how long. -/
structure Refusal where
  status : ℕ := 429
  message : String := "rate limit exceeded"
  retryAfter : ℤ
  deriving DecidableEq, Repr

/-- The entry after a request, and the refusal if it is turned away. -/
def checkEntry (now : ℤ) (entry : RateLimitEntry) : RateLimitEntry × Option Refusal :=
  let elapsed := toSeconds (now - entry.windowStart)
  if elapsed ≥ kRateLimitWindowSeconds then ({ requestCount := 1, windowStart := now }, none)
  else
    let requestCount := toInt32 (entry.requestCount + 1)
    ({ entry with requestCount := requestCount },
      if requestCount > (kRateLimitMaxRequests : ℤ) then
        some { retryAfter := kRateLimitWindowSeconds - elapsed }
      else none)

/-- `CheckRateLimit`; `none` is a request that passes. -/
def checkRateLimit (now : ℤ) (ip : String) (s : RateLimits) : RateLimits × Option Refusal :=
  let (entry, answer) := checkEntry now ((s ip).getD {})
  (Function.update s ip (some entry), answer)

/-! ### Runs -/

/-- A call, with the time it reads. -/
structure RateCall where
  ip : String
  now : ℤ
  deriving DecidableEq

/-- When the address calls. -/
def timesOf (ip : String) (calls : List RateCall) : List ℤ :=
  (calls.filter (·.ip = ip)).map (·.now)

/-- What the address is told, and when. -/
def answersTo (ip : String) : RateLimits → List RateCall → List (ℤ × Option Refusal)
  | _, [] => []
  | s, call :: calls =>
      let (s', answer) := checkRateLimit call.now call.ip s
      (if call.ip = ip then [(call.now, answer)] else []) ++ answersTo ip s' calls

/-- The times at which a request passed. -/
def passed (answers : List (ℤ × Option Refusal)) : List ℤ :=
  (answers.filter (·.2.isNone)).map (·.1)

/-- At most 120 requests of the address pass in any sixty seconds, and what it is told does not
depend on other addresses. -/
def RateBounded (ip : String) (calls : List RateCall) : Prop :=
  WithinWindows kRateLimitMaxRequests (seconds kRateLimitWindowSeconds)
      (passed (answersTo ip (fun _ => none) calls)) ∧
    answersTo ip (fun _ => none) calls = answersTo ip (fun _ => none) (calls.filter (·.ip = ip))

/-- The requests of an address in the window it is in, and in the one before. -/
structure RateWindows where
  start : ℤ := 0
  last : List ℤ := []
  current : List ℤ := []

namespace RateWindows

/-- One more request. -/
def next (w : RateWindows) (now : ℤ) : RateWindows :=
  if w.start + seconds kRateLimitWindowSeconds ≤ now then
    { start := now, last := w.current, current := [now] }
  else { w with current := w.current ++ [now] }

end RateWindows

/-- Is the `k`-th request of a window one of the first 120?  The count is an `int`. -/
def Counts (k : ℕ) : Prop := toInt32 k ≤ (kRateLimitMaxRequests : ℤ)

instance : DecidablePred Counts :=
  fun k => inferInstanceAs (Decidable (toInt32 k ≤ (kRateLimitMaxRequests : ℤ)))

/-- The first 120 of a window's requests. -/
def inOrder (times : List ℤ) : List ℤ := ((times.zipIdx 1).filter (Counts ·.2)).map (·.1)

/-- If the request is one of the first 120 of its window, then at most 120 that are so in that
window and in the one before lie in the sixty seconds up to it. -/
def FitsWindow (w : RateWindows) (now : ℤ) : Prop :=
  let w' := w.next now
  Counts w'.current.length →
    (inOrder w'.last ++ inOrder w'.current).countP
      (now - seconds kRateLimitWindowSeconds < ·) ≤ kRateLimitMaxRequests

instance (w : RateWindows) : DecidablePred (FitsWindow w) :=
  fun _ => inferInstanceAs (Decidable (_ → _))

/-! ### One address -/

/-- The answers to one address, from its entry on. -/
def entryAnswers : RateLimitEntry → List ℤ → List (ℤ × Option Refusal)
  | _, [] => []
  | entry, now :: times =>
      (now, (checkEntry now entry).2) :: entryAnswers (checkEntry now entry).1 times

/-- **An address has its entry to itself.** -/
theorem answersTo_eq (ip : String) (s : RateLimits) (calls : List RateCall) :
    answersTo ip s calls = entryAnswers ((s ip).getD {}) (timesOf ip calls) := by
  induction calls generalizing s with
  | nil => rfl
  | cons call calls ih =>
      by_cases e : call.ip = ip
      · subst e
        simp [answersTo, checkRateLimit, timesOf, entryAnswers, ih]
      · have hother : (checkRateLimit call.now call.ip s).1 ip = s ip :=
          Function.update_of_ne (Ne.symm e) _ _
        simp [answersTo, timesOf, e, ih, hother]

theorem timesOf_filter (ip : String) (calls : List RateCall) :
    timesOf ip (calls.filter (·.ip = ip)) = timesOf ip calls := by
  simp [timesOf]

theorem entryAnswers_concat (entry : RateLimitEntry) (times : List ℤ) (now : ℤ) :
    entryAnswers entry (times ++ [now]) =
      entryAnswers entry times ++
        [(now, (checkEntry now
          (times.foldl (fun entry t => (checkEntry t entry).1) entry)).2)] := by
  induction times generalizing entry with
  | nil => rfl
  | cons t times ih => simp only [List.cons_append, entryAnswers, ih, List.foldl_cons]

/-! ### Windows -/

namespace RateWindows

/-- The entry of an address, from its windows. -/
def entry (w : RateWindows) : RateLimitEntry where
  requestCount := toInt32 w.current.length
  windowStart := w.start

theorem next_of_le {w : RateWindows} {now : ℤ}
    (h : w.start + seconds kRateLimitWindowSeconds ≤ now) :
    w.next now = { start := now, last := w.current, current := [now] } := if_pos h

theorem next_of_lt {w : RateWindows} {now : ℤ}
    (h : now < w.start + seconds kRateLimitWindowSeconds) :
    w.next now = { w with current := w.current ++ [now] } := if_neg (not_le.mpr h)

end RateWindows

theorem toSeconds_ge_iff (d : ℤ) :
    toSeconds d ≥ kRateLimitWindowSeconds ↔ seconds kRateLimitWindowSeconds ≤ d :=
  le_tdiv_iff (by decide) (by decide)

theorem counts_one : Counts 1 := by decide

section Entry

variable {now : ℤ} {entry : RateLimitEntry}

theorem checkEntry_of_ge (h : toSeconds (now - entry.windowStart) ≥ kRateLimitWindowSeconds) :
    checkEntry now entry = ({ requestCount := 1, windowStart := now }, none) := if_pos h

theorem checkEntry_of_lt (h : ¬ toSeconds (now - entry.windowStart) ≥ kRateLimitWindowSeconds) :
    checkEntry now entry =
      ({ entry with requestCount := toInt32 (entry.requestCount + 1) },
        if toInt32 (entry.requestCount + 1) > (kRateLimitMaxRequests : ℤ) then
          some { retryAfter := kRateLimitWindowSeconds - toSeconds (now - entry.windowStart) }
        else none) := if_neg h

end Entry

/-- **The check** goes on with the window or begins one, and lets the first 120 pass. -/
theorem checkEntry_entry (w : RateWindows) (now : ℤ) :
    (checkEntry now w.entry).1 = (w.next now).entry ∧
      ((checkEntry now w.entry).2 = none ↔ Counts (w.next now).current.length) := by
  have hstart : w.entry.windowStart = w.start := rfl
  have hrequests : w.entry.requestCount = toInt32 w.current.length := by rw [RateWindows.entry]
  by_cases hnext : w.start + seconds kRateLimitWindowSeconds ≤ now
  · have helapsed : toSeconds (now - w.entry.windowStart) ≥ kRateLimitWindowSeconds := by
      rw [toSeconds_ge_iff, hstart]
      omega
    have hone : toInt32 (1 : ℕ) = 1 := by decide
    rw [checkEntry_of_ge helapsed, RateWindows.next_of_le hnext]
    refine ⟨?_, iff_of_true rfl counts_one⟩
    simp only [RateWindows.entry, List.length_singleton, hone]
  · have helapsed : ¬ toSeconds (now - w.entry.windowStart) ≥ kRateLimitWindowSeconds := by
      rw [toSeconds_ge_iff, hstart]
      omega
    have hcount : toInt32 (w.entry.requestCount + 1) = toInt32 (w.current ++ [now]).length := by
      rw [hrequests, toInt32_succ, List.length_append, List.length_singleton]
    rw [checkEntry_of_lt helapsed, hcount, RateWindows.next_of_lt (not_le.mp hnext)]
    refine ⟨by simp only [RateWindows.entry], ?_⟩
    simp only [Counts]
    split
    case isTrue hmany => exact iff_of_false (Option.some_ne_none _) (not_le.mpr hmany)
    case isFalse hfew => exact iff_of_true rfl (not_lt.mp hfew)

theorem inOrder_concat (times : List ℤ) (now : ℤ) :
    inOrder (times ++ [now]) =
      inOrder times ++ if Counts (times ++ [now]).length then [now] else [] := by
  have hlen : (times ++ [now]).length = 1 + times.length := by
    rw [List.length_append, List.length_singleton, Nat.add_comm]
  rw [hlen, inOrder, List.zipIdx_append, List.filter_append, List.map_append, ← inOrder,
    List.append_right_inj]
  by_cases h : Counts (1 + times.length) <;> simp [h]

theorem inOrder_subset {times : List ℤ} {t : ℤ} (h : t ∈ inOrder times) : t ∈ times := by
  obtain ⟨⟨u, k⟩, hmem, rfl⟩ := List.mem_map.mp h
  exact List.fst_mem_of_mem_zipIdx (List.mem_of_mem_filter hmem)

/-- The windows of an address that has called at these times. -/
def windowsAfter (times : List ℤ) : RateWindows := times.foldl RateWindows.next {}

theorem windowsAfter_concat (times : List ℤ) (now : ℤ) :
    windowsAfter (times ++ [now]) = (windowsAfter times).next now := List.foldl_concat ..

theorem entry_windowsAfter (times : List ℤ) :
    times.foldl (fun entry t => (checkEntry t entry).1) {} = (windowsAfter times).entry := by
  induction times using List.reverseRecOn with
  | nil => decide
  | append_singleton times now ih =>
      rw [List.foldl_concat, ih, windowsAfter_concat, (checkEntry_entry _ now).1]

theorem passed_subset {entry : RateLimitEntry} {times : List ℤ} {t : ℤ}
    (h : t ∈ passed (entryAnswers entry times)) : t ∈ times := by
  obtain ⟨answer, hanswer, rfl⟩ := List.mem_map.mp h
  have hmem := List.mem_of_mem_filter hanswer
  clear h hanswer
  induction times generalizing entry with
  | nil => cases hmem
  | cons now times ih =>
      rcases List.mem_cons.mp hmem with rfl | hmem
      · exact List.mem_cons_self
      · exact List.mem_cons_of_mem _ (ih hmem)

/-- One more request passes exactly when it is one of the first 120 of its window. -/
theorem passed_concat (times : List ℤ) (now : ℤ) :
    passed (entryAnswers {} (times ++ [now])) =
      passed (entryAnswers {} times) ++
        if Counts ((windowsAfter times).next now).current.length then [now] else [] := by
  have hpass := (checkEntry_entry (windowsAfter times) now).2
  rw [entryAnswers_concat, entry_windowsAfter, passed, List.filter_append, List.map_append,
    ← passed, List.append_right_inj]
  by_cases h : Counts ((windowsAfter times).next now).current.length
  · simp [h, hpass.mpr h]
  · have hsome : (checkEntry now (windowsAfter times).entry).2.isNone = false := by
      rw [Bool.eq_false_iff, ne_eq, Option.isNone_iff_eq_none]
      exact fun e => h (hpass.mp e)
    simp [h, hsome]

/-! ### Whole runs -/

/-- What has passed by the end of a run: the first 120 of each window, in order.  The windows before
the last two are over for good. -/
def Divided (times : List ℤ) : Prop :=
  ∃ older, passed (entryAnswers {} times) =
      older ++ (inOrder (windowsAfter times).last ++ inOrder (windowsAfter times).current) ∧
    (∀ t ∈ older, ∃ u ∈ times, t + seconds kRateLimitWindowSeconds ≤ u) ∧
    (∀ t ∈ (windowsAfter times).last, t ≤ (windowsAfter times).start) ∧
    (∀ t ∈ (windowsAfter times).current, t ∈ times)

theorem divided_concat {times : List ℤ} {now : ℤ} (h : Divided times)
    (hlatest : ∀ t ∈ times, t ≤ now) : Divided (times ++ [now]) := by
  obtain ⟨older, hpassed, hover, hlast, hcurrent⟩ := h
  rw [Divided, passed_concat, windowsAfter_concat, hpassed]
  set w := windowsAfter times
  have hover' : ∀ t ∈ older, ∃ u ∈ times ++ [now], t + seconds kRateLimitWindowSeconds ≤ u := by
    intro t ht
    obtain ⟨u, hu, htu⟩ := hover t ht
    exact ⟨u, List.mem_append_left _ hu, htu⟩
  by_cases hnext : w.start + seconds kRateLimitWindowSeconds ≤ now
  · rw [RateWindows.next_of_le hnext]
    refine ⟨older ++ inOrder w.last, ?_, ?_, fun t ht => hlatest t (hcurrent t ht), ?_⟩
    · have hone : inOrder [now] = [now] := by
        rw [← List.nil_append [now], inOrder_concat]
        simp [inOrder, counts_one]
      simp [hone, counts_one]
    · intro t ht
      rcases List.mem_append.mp ht with ht | ht
      · exact hover' t ht
      · have hstart := hlast t (inOrder_subset ht)
        exact ⟨now, by simp, by omega⟩
    · intro t ht
      exact List.mem_append_right _ ht
  · rw [RateWindows.next_of_lt (not_le.mp hnext)]
    refine ⟨older, ?_, hover', hlast, fun t ht => ?_⟩
    · rw [inOrder_concat]
      simp only [List.append_assoc]
    · rcases List.mem_append.mp ht with ht | ht
      · exact List.mem_append_left _ (hcurrent t ht)
      · exact List.mem_append_right _ ht

/-- Of what has passed, the windows before the last two do not count any more. -/
theorem Divided.countP {times : List ℤ} {now : ℤ} (h : Divided times)
    (hlatest : ∀ t ∈ times, t ≤ now) :
    (passed (entryAnswers {} times)).countP (now - seconds kRateLimitWindowSeconds < ·) =
      (inOrder (windowsAfter times).last ++ inOrder (windowsAfter times).current).countP
        (now - seconds kRateLimitWindowSeconds < ·) := by
  obtain ⟨older, hpassed, hover, -, -⟩ := h
  have hnone : older.countP (now - seconds kRateLimitWindowSeconds < ·) = 0 := by
    refine List.countP_eq_zero.mpr fun t ht => ?_
    obtain ⟨u, hu, htu⟩ := hover t ht
    have := hlatest u hu
    simp only [decide_eq_true_eq]
    omega
  rw [hpassed, List.countP_append, hnone, Nat.zero_add]

/-- **One address**: by induction on its requests, what passes is bounded as long as each fits. -/
theorem withinWindows_passed_iff {times : List ℤ} (hsorted : times.Pairwise (· ≤ ·)) :
    Divided times ∧
      (WithinWindows kRateLimitMaxRequests (seconds kRateLimitWindowSeconds)
          (passed (entryAnswers {} times)) ↔
        EveryStep RateWindows.next FitsWindow {} times) := by
  induction times using List.reverseRecOn with
  | nil =>
      exact ⟨⟨[], rfl, by simp, by simp [windowsAfter], by simp [windowsAfter]⟩,
        iff_of_true withinWindows_nil trivial⟩
  | append_singleton times now ih =>
      obtain ⟨hsorted, -, hlatest⟩ := List.pairwise_append.mp hsorted
      have hlatest : ∀ t ∈ times, t ≤ now := fun t ht => hlatest t ht now (by simp)
      obtain ⟨hdivided, ih⟩ := ih hsorted
      have hdivided' := divided_concat hdivided hlatest
      refine ⟨hdivided', ?_⟩
      have hpassed := passed_concat times now
      have hupto : ∀ t ∈ times ++ [now], t ≤ now := by
        intro t ht
        rcases List.mem_append.mp ht with ht | ht
        · exact hlatest t ht
        · exact (List.mem_singleton.mp ht).le
      have hcount := hdivided'.countP hupto
      rw [windowsAfter_concat] at hcount
      rw [everyStep_concat, ← ih, ← windowsAfter, FitsWindow]
      by_cases hcounts : Counts ((windowsAfter times).next now).current.length
      · rw [if_pos hcounts] at hpassed
        rw [hpassed] at hcount ⊢
        have hbefore : ∀ t ∈ passed (entryAnswers {} times), t ≤ now :=
          fun t ht => hlatest t (passed_subset ht)
        rw [withinWindows_concat hbefore, hcount, imp_iff_right hcounts]
      · rw [if_neg hcounts, List.append_nil] at hpassed
        rw [hpassed]
        simp [hcounts]

theorem pairwise_timesOf {ip : String} {calls : List RateCall}
    (h : calls.Pairwise (·.now ≤ ·.now)) : (timesOf ip calls).Pairwise (· ≤ ·) :=
  List.pairwise_map.mpr (h.sublist List.filter_sublist)

/-- What an address is told is its own, whoever else calls. -/
theorem answersTo_filter (ip : String) (calls : List RateCall) :
    answersTo ip (fun _ => none) calls =
      answersTo ip (fun _ => none) (calls.filter (·.ip = ip)) := by
  rw [answersTo_eq, answersTo_eq, timesOf_filter]

/-- **The rate is bounded** in a run of calls exactly when no request that is one of the first 120
of its window is too much with those of that window and of the one before. -/
theorem rateBounded_iff (ip : String) (calls : List RateCall)
    (htimes : calls.Pairwise (·.now ≤ ·.now)) :
    RateBounded ip calls ↔ EveryStep RateWindows.next FitsWindow {} (timesOf ip calls) := by
  have hsorted : (timesOf ip calls).Pairwise (· ≤ ·) := pairwise_timesOf htimes
  have hbounded := (withinWindows_passed_iff hsorted).2
  rw [RateBounded, and_iff_left (answersTo_filter ip calls), answersTo_eq]
  exact hbounded

/-- Two addresses that call every three seconds. -/
def steadyCalls : List RateCall :=
  (List.range 30).flatMap fun i =>
    [⟨"10.0.0.7", seconds (100 + 3 * i)⟩, ⟨"10.0.0.8", seconds (100 + 3 * i)⟩]

theorem rateBounded_steady : RateBounded "10.0.0.7" steadyCalls :=
  (rateBounded_iff "10.0.0.7" steadyCalls (by decide +kernel)).mpr (by decide +kernel)

/-- One call, 119 in the last second of its window and 120 in the first of the next. -/
def burst : List RateCall :=
  ⟨"10.0.0.7", seconds 100⟩ :: (List.replicate 119 ⟨"10.0.0.7", seconds 159⟩ ++
    List.replicate 120 ⟨"10.0.0.7", seconds 160⟩)

/-- The times of all calls but the last. -/
def burstBefore : List ℤ :=
  seconds 100 :: (List.replicate 119 (seconds 159) ++ List.replicate 119 (seconds 160))

theorem timesOf_burst : timesOf "10.0.0.7" burst = burstBefore ++ [seconds 160] := by
  have hlast : List.replicate 120 (seconds 160) =
      List.replicate 119 (seconds 160) ++ [seconds 160] := List.replicate_succ'
  simp only [timesOf, burst, burstBefore, List.filter_cons, List.filter_append,
    List.filter_replicate, decide_true, if_true, List.map_cons, List.map_append,
    List.map_replicate, hlast, List.cons_append, List.append_assoc]

theorem burst_pairwise : burst.Pairwise (·.now ≤ ·.now) := by
  have hearly : seconds 100 ≤ seconds 159 := by decide
  have hlate : seconds 159 ≤ seconds 160 := by decide
  refine List.pairwise_cons.mpr ⟨fun call hcall => ?_, List.pairwise_append.mpr
    ⟨List.pairwise_replicate.mpr (.inr le_rfl), List.pairwise_replicate.mpr (.inr le_rfl), ?_⟩⟩
  · rcases List.mem_append.mp hcall with hcall | hcall
    · rw [List.eq_of_mem_replicate hcall]
      exact hearly
    · rw [List.eq_of_mem_replicate hcall]
      exact hearly.trans hlate
  · intro a ha b hb
    rw [List.eq_of_mem_replicate ha, List.eq_of_mem_replicate hb]
    exact hlate

/-- All of them pass: 239 within two seconds. -/
theorem rateBounded_refuted : burst.Pairwise (·.now ≤ ·.now) ∧ ¬ RateBounded "10.0.0.7" burst := by
  refine ⟨burst_pairwise, fun h => ?_⟩
  rw [RateBounded, answersTo_eq] at h
  have hfits := (withinWindows_passed_iff (pairwise_timesOf burst_pairwise)).2.mp h.1
  rw [timesOf_burst, everyStep_concat] at hfits
  exact absurd hfits.2 (by decide +kernel)

end LoongNvr.Network
