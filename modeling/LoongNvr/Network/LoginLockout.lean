import LoongNvr.Core.Types
import LoongNvr.Support.Runs
import LoongNvr.Support.Window
import Mathlib.Data.List.Induction
import Mathlib.Logic.Function.Basic
import Mathlib.Data.Int.Order.Basic
import Mathlib.Order.Basic

/-!
# Network — LoginLockout

`HttpServer`'s protection of the login against guessing: the fifth failure of an address within
fifteen minutes locks it for fifteen minutes.  Times are ticks of the steady clock, nanoseconds.

* `recordLoginFailure`, `recordLoginSuccess`, `isLoginLocked`: the three calls.
* `LocksHold`: once a failure has locked an address, it stays locked for fifteen minutes.
* `NotCut`: a call that does not start the count again while the address is locked, nor counts
  beyond the greatest `int`.
* `locksHold_iff`: in a run the locks hold exactly when every call is such a call.
-/

namespace LoongNvr.Network
open LoongNvr.Core Support

/-- Login attempt tracking for one address. -/
structure LoginAttemptEntry where
  failedCount : ℤ := 0
  firstFailure : ℤ := 0
  lockedUntil : ℤ := 0
  deriving DecidableEq, Repr

/-- `login_attempts_` -/
abbrev LoginAttempts := String → Option LoginAttemptEntry

def kMaxLoginAttempts : ℤ := 5

def kLoginLockoutMinutes : ℤ := 15

/-- `std::chrono::minutes` in ticks. -/
def minutes (n : ℤ) : ℤ := n * 60000000000

/-- `duration_cast<std::chrono::minutes>`, which drops what is less than a minute. -/
def toMinutes (ticks : ℤ) : ℤ := ticks.tdiv 60000000000

/-- The entry with a failure counted, from the start if the first one is too long ago. -/
def countedEntry (now : ℤ) (entry : LoginAttemptEntry) : LoginAttemptEntry :=
  let elapsed := toMinutes (now - entry.firstFailure)
  let entry := if elapsed ≥ kLoginLockoutMinutes then { entry with failedCount := 0 } else entry
  let entry := if entry.failedCount = 0 then { entry with firstFailure := now } else entry
  { entry with failedCount := toInt32 (entry.failedCount + 1) }

/-- The entry a failure leaves of the one it finds. -/
def failedEntry (now : ℤ) (entry : LoginAttemptEntry) : LoginAttemptEntry :=
  let entry := countedEntry now entry
  if entry.failedCount ≥ kMaxLoginAttempts then
    { entry with lockedUntil := now + minutes kLoginLockoutMinutes }
  else entry

def recordLoginFailure (now : ℤ) (ip : String) (s : LoginAttempts) : LoginAttempts :=
  Function.update s ip (some (failedEntry now ((s ip).getD {})))

def recordLoginSuccess (ip : String) (s : LoginAttempts) : LoginAttempts :=
  Function.update s ip none

def isLoginLocked (now : ℤ) (ip : String) (s : LoginAttempts) : LoginAttempts × Bool :=
  match s ip with
  | none => (s, false)
  | some entry =>
      if entry.failedCount ≥ kMaxLoginAttempts ∧ now < entry.lockedUntil then (s, true)
      else if now ≥ entry.lockedUntil ∧ entry.failedCount ≥ kMaxLoginAttempts then
        (Function.update s ip none, false)
      else (s, false)

/-! ### Runs -/

/-- A call, with the time it reads. -/
inductive LoginCall
  | failure (ip : String) (now : ℤ)
  | success (ip : String) (now : ℤ)
  | isLocked (ip : String) (now : ℤ)
  deriving DecidableEq

namespace LoginCall

def time : LoginCall → ℤ
  | .failure _ now | .success _ now | .isLocked _ now => now

end LoginCall

def loginStep (s : LoginAttempts) : LoginCall → LoginAttempts
  | .failure ip now => recordLoginFailure now ip s
  | .success ip _ => recordLoginSuccess ip s
  | .isLocked ip now => (isLoginLocked now ip s).1

/-- The attempts recorded by a run of calls, from the server's start on. -/
def attemptsAfter (calls : List LoginCall) : LoginAttempts :=
  calls.foldl loginStep fun _ => none

/-- The failure at `t` has set the entry's lock. -/
def LockedAt (ip : String) (t : ℤ) (s : LoginAttempts) : Prop :=
  ∃ entry, s ip = some entry ∧ entry.failedCount ≥ kMaxLoginAttempts ∧
    entry.lockedUntil = t + minutes kLoginLockoutMinutes

/-- Once a failure at `t` has locked the address, and until a login succeeds, a call of
`isLoginLocked` less than fifteen minutes after `t` returns true. -/
def LocksHold (ip : String) (calls : List LoginCall) : Prop :=
  ∀ before t between, before ++ .failure ip t :: between <+: calls →
    LockedAt ip t (attemptsAfter (before ++ [.failure ip t])) →
    (∀ u, .success ip u ∉ between) →
    ∀ v, t ≤ v → (∀ call ∈ between, call.time ≤ v) → v < t + minutes kLoginLockoutMinutes →
      (isLoginLocked v ip (attemptsAfter (before ++ .failure ip t :: between))).2 = true

/-- A failure of the address that arrives while it is locked is counted: it comes less than fifteen
minutes after the first failure of the entry, and there is a next `int`. -/
def NotCut (ip : String) (s : LoginAttempts) : LoginCall → Prop
  | .failure ip' now =>
      ip' = ip → ∀ entry ∈ s ip, entry.failedCount ≥ kMaxLoginAttempts →
        now < entry.lockedUntil → now < entry.firstFailure + minutes kLoginLockoutMinutes ∧
          entry.failedCount ≠ 2147483647
  | _ => True

instance (ip : String) (s : LoginAttempts) : ∀ call, Decidable (NotCut ip s call)
  | .failure ip' _ =>
      inferInstanceAs (Decidable (ip' = ip → ∀ entry ∈ s ip, _ → _ → _))
  | .success _ _ | .isLocked _ _ => .isTrue trivial

/-! ### One entry -/

theorem toMinutes_ge_iff (d : ℤ) :
    toMinutes d ≥ kLoginLockoutMinutes ↔ minutes kLoginLockoutMinutes ≤ d :=
  le_tdiv_iff (by decide) (by decide)

@[simp] theorem failedEntry_failedCount (now : ℤ) (entry : LoginAttemptEntry) :
    (failedEntry now entry).failedCount = (countedEntry now entry).failedCount := by
  rw [failedEntry]
  split <;> rfl

/-- Where a failure locks, it locks from its own time on. -/
theorem failedEntry_lockedUntil {now : ℤ} {entry : LoginAttemptEntry}
    (h : (failedEntry now entry).failedCount ≥ kMaxLoginAttempts) :
    (failedEntry now entry).lockedUntil = now + minutes kLoginLockoutMinutes := by
  rw [failedEntry_failedCount] at h
  rw [failedEntry, if_pos h]

/-- A failure in time counts on. -/
theorem countedEntry_of_lt {now : ℤ} {entry : LoginAttemptEntry}
    (hnow : now < entry.firstFailure + minutes kLoginLockoutMinutes) :
    (countedEntry now entry).failedCount = toInt32 (entry.failedCount + 1) := by
  have helapsed : ¬ toMinutes (now - entry.firstFailure) ≥ kLoginLockoutMinutes := by
    rw [toMinutes_ge_iff]
    omega
  simp only [countedEntry, if_neg helapsed]
  split <;> rfl

/-- A failure fifteen minutes after the first one starts the count again. -/
theorem countedEntry_of_ge {now : ℤ} {entry : LoginAttemptEntry}
    (hnow : entry.firstFailure + minutes kLoginLockoutMinutes ≤ now) :
    (countedEntry now entry).failedCount = 1 := by
  have helapsed : toMinutes (now - entry.firstFailure) ≥ kLoginLockoutMinutes := by
    rw [toMinutes_ge_iff]
    omega
  simp only [countedEntry, if_pos helapsed, if_true, Int.zero_add]
  decide

theorem isInt_failedEntry (now : ℤ) (entry : LoginAttemptEntry) :
    IsInt (failedEntry now entry).failedCount := by
  rw [failedEntry_failedCount]
  exact isInt_toInt32 _

/-- A failure that is not counted on locks nothing: it is the first again, or beyond the greatest
`int`. -/
theorem failedCount_lt_of_cut {now : ℤ} {entry : LoginAttemptEntry}
    (hcut : ¬ (now < entry.firstFailure + minutes kLoginLockoutMinutes ∧
      entry.failedCount ≠ 2147483647)) :
    (failedEntry now entry).failedCount < kMaxLoginAttempts := by
  rw [failedEntry_failedCount]
  rcases lt_or_ge now (entry.firstFailure + minutes kLoginLockoutMinutes) with hnow | hnow
  · have hmax : entry.failedCount = 2147483647 := by
      by_contra hmax
      exact hcut ⟨hnow, hmax⟩
    rw [countedEntry_of_lt hnow, hmax]
    decide
  · rw [countedEntry_of_ge hnow]
    decide

theorem isLoginLocked_eq_true_iff {now : ℤ} {ip : String} {s : LoginAttempts} :
    (isLoginLocked now ip s).2 = true ↔
      ∃ entry, s ip = some entry ∧ entry.failedCount ≥ kMaxLoginAttempts ∧
        now < entry.lockedUntil := by
  rw [isLoginLocked]
  split
  · simp [*]
  · rename_i entry hentry
    simp only [hentry, Option.some.injEq, exists_eq_left']
    split
    · simp [*]
    · split <;> simp [*]

theorem attemptsAfter_concat (calls : List LoginCall) (call : LoginCall) :
    attemptsAfter (calls ++ [call]) = loginStep (attemptsAfter calls) call :=
  List.foldl_concat _ _ _ _

/-! ### One call -/

/-- A failure leaves the entry with the failure in it. -/
theorem loginStep_failure (s : LoginAttempts) (ip : String) (now : ℤ) :
    loginStep s (.failure ip now) ip = some (failedEntry now ((s ip).getD {})) :=
  Function.update_self _ _ _

/-- The address is locked, until `until_` or later. -/
def Standing (ip : String) (until_ : ℤ) (s : LoginAttempts) : Prop :=
  ∃ entry, s ip = some entry ∧ IsInt entry.failedCount ∧ entry.failedCount ≥ kMaxLoginAttempts ∧
    until_ ≤ entry.lockedUntil

/-- A call about another address, or a question asked while the lock stands, changes nothing. -/
theorem loginStep_of_ne {ip : String} {s : LoginAttempts} {call : LoginCall}
    (hfailure : ∀ now, call ≠ .failure ip now) (hsuccess : ∀ now, call ≠ .success ip now)
    (hlocked : ∀ now, call = .isLocked ip now → (isLoginLocked now ip s).2 = true) :
    loginStep s call ip = s ip := by
  cases call with
  | failure ip' now =>
      have hne : ip ≠ ip' := fun e => hfailure now (e ▸ rfl)
      exact Function.update_of_ne hne _ _
  | success ip' now =>
      have hne : ip ≠ ip' := fun e => hsuccess now (e ▸ rfl)
      exact Function.update_of_ne hne _ _
  | isLocked ip' now =>
      by_cases e : ip' = ip
      · subst e
        obtain ⟨entry, hentry, hcount, hnow⟩ := isLoginLocked_eq_true_iff.mp (hlocked now rfl)
        simp [loginStep, isLoginLocked, hentry, hcount, hnow]
      · simp only [loginStep, isLoginLocked]
        split
        · rfl
        · split
          · rfl
          · split
            · exact Function.update_of_ne (Ne.symm e) _ _
            · rfl

/-- An entry that no failure of its address touched was there before. -/
theorem of_loginStep_eq_some {ip : String} {s : LoginAttempts} {call : LoginCall}
    {entry : LoginAttemptEntry} (hfailure : ∀ now, call ≠ .failure ip now)
    (h : loginStep s call ip = some entry) :
    s ip = some entry ∧ ∀ now, call ≠ .success ip now := by
  have hsuccess : ∀ now, call ≠ .success ip now := by
    rintro now rfl
    rw [loginStep, recordLoginSuccess, Function.update_self] at h
    exact absurd h (by simp)
  refine ⟨?_, hsuccess⟩
  by_cases hasked : ∀ now, call = .isLocked ip now → (isLoginLocked now ip s).2 = true
  · rwa [loginStep_of_ne hfailure hsuccess hasked] at h
  · -- a question answered with no, which keeps the entry or erases it
    simp only [not_forall] at hasked
    obtain ⟨now, rfl, hno⟩ := hasked
    simp only [loginStep, isLoginLocked] at h
    split at h
    · exact h
    · split at h
      · exact h
      · split at h
        · exact absurd h (by simp)
        · exact h

/-- **One call.**  A call that does not start the count again leaves a lock standing. -/
theorem Standing.step {ip : String} {t : ℤ} {s : LoginAttempts} {call : LoginCall}
    (hs : Standing ip (t + minutes kLoginLockoutMinutes) s) (hcut : NotCut ip s call)
    (hsuccess : ∀ now, call ≠ .success ip now) (hfrom : t ≤ call.time)
    (hto : call.time < t + minutes kLoginLockoutMinutes) :
    Standing ip (t + minutes kLoginLockoutMinutes) (loginStep s call) := by
  obtain ⟨entry, hentry, hint, hcount, huntil⟩ := hs
  by_cases hfailure : ∃ now, call = .failure ip now
  · obtain ⟨now, rfl⟩ := hfailure
    obtain ⟨hnow, hmax⟩ := hcut rfl entry hentry hcount (lt_of_lt_of_le hto huntil)
    have hnext : IsInt (entry.failedCount + 1) := by
      unfold IsInt at hint ⊢
      omega
    have hcounted : (failedEntry now entry).failedCount ≥ kMaxLoginAttempts := by
      rw [failedEntry_failedCount, countedEntry_of_lt hnow, toInt32_of_isInt hnext]
      omega
    refine ⟨failedEntry now entry, ?_, isInt_failedEntry now entry, hcounted, ?_⟩
    · rw [loginStep_failure, hentry, Option.getD_some]
    · rw [failedEntry_lockedUntil hcounted]
      exact Int.add_le_add_right hfrom _
  · refine ⟨entry, ?_, hint, hcount, huntil⟩
    rw [loginStep_of_ne (fun now e => hfailure ⟨now, e⟩) hsuccess, hentry]
    rintro now rfl
    exact isLoginLocked_eq_true_iff.mpr ⟨entry, hentry, hcount, lt_of_lt_of_le hto huntil⟩

/-! ### Whole runs -/

/-- The lock stands through a run of such calls. -/
theorem Standing.run {ip : String} {t : ℤ} {calls : List LoginCall} {s : LoginAttempts}
    (hs : Standing ip (t + minutes kLoginLockoutMinutes) s)
    (hcut : EveryStep loginStep (NotCut ip) s calls) (hsuccess : ∀ u, .success ip u ∉ calls)
    (hfrom : ∀ call ∈ calls, t ≤ call.time)
    (hto : ∀ call ∈ calls, call.time < t + minutes kLoginLockoutMinutes) :
    Standing ip (t + minutes kLoginLockoutMinutes) (calls.foldl loginStep s) := by
  induction calls generalizing s with
  | nil => exact hs
  | cons call calls ih =>
      have hnext := hs.step hcut.1 (fun now e => hsuccess now (e ▸ List.mem_cons_self))
        (hfrom call List.mem_cons_self) (hto call List.mem_cons_self)
      exact ih hnext hcut.2 (fun u h => hsuccess u (List.mem_cons_of_mem _ h))
        (fun c h => hfrom c (List.mem_cons_of_mem _ h))
        fun c h => hto c (List.mem_cons_of_mem _ h)

/-- A locked entry was locked by a failure of the run, and no login succeeded since. -/
theorem lockedAt_of_locked {ip : String} (calls : List LoginCall) :
    ∀ entry, attemptsAfter calls ip = some entry → entry.failedCount ≥ kMaxLoginAttempts →
      ∃ before t between, calls = before ++ .failure ip t :: between ∧
        LockedAt ip t (attemptsAfter (before ++ [.failure ip t])) ∧
        (∀ u, .success ip u ∉ between) ∧
        entry.lockedUntil = t + minutes kLoginLockoutMinutes := by
  induction calls using List.reverseRecOn with
  | nil => exact fun entry h => absurd h (by simp [attemptsAfter])
  | append_singleton calls call ih =>
      intro entry hentry hcount
      have hlast := attemptsAfter_concat calls call
      by_cases hfailure : ∃ now, call = .failure ip now
      · -- the last call locked it
        obtain ⟨now, rfl⟩ := hfailure
        have hnow : failedEntry now ((attemptsAfter calls ip).getD {}) = entry := by
          rw [hlast, loginStep_failure] at hentry
          exact Option.some.inj hentry
        have huntil : entry.lockedUntil = now + minutes kLoginLockoutMinutes := by
          rw [← hnow] at hcount ⊢
          exact failedEntry_lockedUntil hcount
        exact ⟨calls, now, [], rfl, ⟨entry, hentry, hcount, huntil⟩,
          fun u => List.not_mem_nil, huntil⟩
      · -- it was locked before, and the last call left it so
        have hkept : attemptsAfter calls ip = some entry ∧ ∀ u, call ≠ .success ip u := by
          rw [hlast] at hentry
          exact of_loginStep_eq_some (fun now e => hfailure ⟨now, e⟩) hentry
        obtain ⟨before, t, between, rfl, hlocked, hsuccess, huntil⟩ := ih entry hkept.1 hcount
        refine ⟨before, t, between ++ [call], by simp, hlocked, fun u h => ?_, huntil⟩
        rcases List.mem_append.mp h with h | h
        · exact hsuccess u h
        · exact hkept.2 u (List.mem_singleton.mp h).symm

variable {ip : String} {calls : List LoginCall}

theorem locksHold_of_everyStep (htimes : calls.Pairwise (·.time ≤ ·.time))
    (hcut : EveryStep loginStep (NotCut ip) (fun _ => none) calls) : LocksHold ip calls := by
  rintro before t between ⟨after, rfl⟩ ⟨entry, hentry, hcount, huntil⟩ hsuccess v - hbefore hv
  have hsplit : before ++ .failure ip t :: between ++ after =
      before ++ [.failure ip t] ++ (between ++ after) := by simp
  rw [hsplit] at hcut
  have hbetween := (everyStep_append.mp (everyStep_append.mp hcut).2).1
  have hfrom : ∀ call ∈ between, t ≤ call.time := fun call h =>
    (List.pairwise_cons.mp (List.pairwise_append.mp (List.pairwise_append.mp htimes).1).2.1).1
      call h
  have hint : IsInt entry.failedCount := by
    rw [attemptsAfter_concat, loginStep_failure] at hentry
    exact Option.some.inj hentry ▸ isInt_failedEntry _ _
  have hstanding := Standing.run ⟨entry, hentry, hint, hcount, huntil.ge⟩ hbetween hsuccess hfrom
    fun call h => lt_of_le_of_lt (hbefore call h) hv
  have hrun : attemptsAfter (before ++ .failure ip t :: between) =
      between.foldl loginStep (attemptsAfter (before ++ [.failure ip t])) := by
    simp [attemptsAfter]
  obtain ⟨entry', hentry', -, hcount', huntil'⟩ := hstanding
  rw [isLoginLocked_eq_true_iff, hrun]
  exact ⟨entry', hentry', hcount', lt_of_lt_of_le hv huntil'⟩

theorem everyStep_of_locksHold (htimes : calls.Pairwise (·.time ≤ ·.time))
    (h : LocksHold ip calls) : EveryStep loginStep (NotCut ip) (fun _ => none) calls := by
  rw [everyStep_iff_split]
  rintro pre call post rfl
  cases call with
  | success | isLocked => trivial
  | failure ip' now =>
      intro e entry (hentry : attemptsAfter pre ip = some entry) hcount hlocked
      obtain rfl := e.symm
      by_contra hcut
      obtain ⟨before, t, between, rfl, hset, hsuccess, huntil⟩ :=
        lockedAt_of_locked pre entry hentry hcount
      have hpairs : ∀ c ∈ before ++ .failure ip t :: between, c.time ≤ now := fun c hc =>
        (List.pairwise_append.mp htimes).2.2 c hc _ List.mem_cons_self
      -- asked right after the failure that is not counted on
      have hprefix : before ++ .failure ip t :: (between ++ [.failure ip now]) <+:
          before ++ .failure ip t :: between ++ .failure ip now :: post := ⟨post, by simp⟩
      have hnosuccess : ∀ u, LoginCall.success ip u ∉ between ++ [.failure ip now] := by
        intro u hu
        rcases List.mem_append.mp hu with hu | hu
        · exact hsuccess u hu
        · exact absurd (List.mem_singleton.mp hu) (by simp)
      have htimes' : ∀ c ∈ between ++ [.failure ip now], c.time ≤ now := by
        intro c hc
        rcases List.mem_append.mp hc with hc | hc
        · exact hpairs c (List.mem_append_right _ (List.mem_cons_of_mem _ hc))
        · exact (List.mem_singleton.mp hc) ▸ le_rfl
      have hanswer := h before t (between ++ [.failure ip now]) hprefix hset hnosuccess now
        (hpairs _ (List.mem_append_right _ List.mem_cons_self)) htimes' (huntil ▸ hlocked)
      obtain ⟨entry', hentry', hcount', -⟩ := isLoginLocked_eq_true_iff.mp hanswer
      have hafter : attemptsAfter (before ++ .failure ip t :: (between ++ [.failure ip now])) ip =
          some (failedEntry now entry) := by
        have hrun : before ++ .failure ip t :: (between ++ [.failure ip now]) =
            before ++ .failure ip t :: between ++ [.failure ip now] := by simp
        rw [hrun, attemptsAfter_concat, loginStep_failure, hentry, Option.getD_some]
      rw [hafter, Option.some.injEq] at hentry'
      subst hentry'
      exact absurd hcount' (not_le.mpr (failedCount_lt_of_cut hcut))

/-- **The lock-out is not cut short** exactly when no failure of the address starts its count
again while it is locked, or counts beyond the greatest `int`. -/
theorem locksHold_iff (ip : String) (calls : List LoginCall)
    (htimes : calls.Pairwise (·.time ≤ ·.time)) :
    LocksHold ip calls ↔ EveryStep loginStep (NotCut ip) (fun _ => none) calls :=
  ⟨everyStep_of_locksHold htimes, locksHold_of_everyStep htimes⟩

/-- Four failures at once, a fifth after fourteen minutes and a last one after fifteen. -/
def lateFailure : List LoginCall :=
  List.replicate 4 (.failure "10.0.0.7" (minutes 100)) ++
    [.failure "10.0.0.7" (minutes 114), .failure "10.0.0.7" (minutes 115)]

/-- Locked until minute 129, the address is free at minute 115. -/
theorem locksHold_refuted : lateFailure.Pairwise (·.time ≤ ·.time) ∧
    ¬ LocksHold "10.0.0.7" lateFailure := by
  refine ⟨by decide, fun h => ?_⟩
  have hcut := everyStep_of_locksHold (by decide) h
  exact absurd hcut (by decide)

/-- Without the last failure the lock holds. -/
theorem locksHold_without_late : LocksHold "10.0.0.7" lateFailure.dropLast :=
  (locksHold_iff "10.0.0.7" lateFailure.dropLast (by decide)).mpr (by decide)

end LoongNvr.Network
